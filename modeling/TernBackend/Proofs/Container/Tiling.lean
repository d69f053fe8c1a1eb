import TernBackend.Container.Content
import TernBackend.Proofs.Container.Layout
import TernBackend.Proofs.Table

/-!
# Fragments tile the payload

The offsets in the index of a container are a running sum in 64 bits, taken before the first byte of the payload is
written. What ties it to the payload is that the places of the entries are `Tiled`: each starts where the one before
it ends. The running sum keeps this as long as it fits (`tiled_entriesFrom`), and at each of the places stand the
bytes of a fragment (`mem_of_mem_entriesFrom`). When places are tiled, every position from the start of the first to
the end of the last belongs to exactly one of them (`Tiled.existsUnique_covers`), so the fragments fill the payload
without gaps and overlaps (`fragments_tile_payload`).
-/

namespace TernBackend.Container

/-! ## Places -/

namespace Entry

/-- Where the place of the entry ends, as a number without a bound. -/
def stop (e : Entry) : Nat := e.offset.toNat + e.length.toNat

/-- The position in the payload is in the place of the entry. -/
def Covers (e : Entry) (position : Nat) : Prop := e.offset.toNat ≤ position ∧ position < e.stop

/-- The bytes of a payload that are in the place of the entry. -/
def bytesIn (e : Entry) (payload : Bytes) : Bytes := (payload.drop e.offset.toNat).take e.length.toNat

theorem bytesIn_isSuffix {e : Entry} {payload : Bytes} (h : e.stop = payload.length) :
    e.bytesIn payload <:+ payload := by
  have hall : (payload.drop e.offset.toNat).length ≤ e.length.toNat := by
    rw [List.length_drop, ← h, stop]
    omega
  rw [bytesIn, List.take_of_length_le hall]
  exact List.drop_suffix _ _

end Entry

/-- The places of the entries go from `start` to `stop`, each from where the one before it ends. -/
def Tiled : Nat → List Entry → Nat → Prop
  | start, [], stop => start = stop
  | start, e :: es, stop => e.offset.toNat = start ∧ Tiled e.stop es stop

namespace Tiled

theorem start_le : ∀ {start stop : Nat} {es : List Entry}, Tiled start es stop → start ≤ stop
  | _, _, [], h => Nat.le_of_eq h
  | _, _, _ :: _, ⟨hoffset, h⟩ => by
    have hle := h.start_le
    simp only [Entry.stop] at hle
    omega

theorem bounds_of_mem : ∀ {start stop : Nat} {es : List Entry}, Tiled start es stop →
    ∀ e ∈ es, start ≤ e.offset.toNat ∧ e.stop ≤ stop
  | _, _, [], _, e, he => by simp at he
  | start, stop, first :: es, ⟨hoffset, h⟩, e, he => by
    have hle := h.start_le
    rcases List.mem_cons.1 he with rfl | he
    · exact ⟨Nat.le_of_eq hoffset.symm, hle⟩
    · have hbounds := h.bounds_of_mem e he
      simp only [Entry.stop] at hbounds hle ⊢
      omega

theorem offset_of_mem_head? {start stop : Nat} {es : List Entry} (h : Tiled start es stop) :
    ∀ e ∈ es.head?, e.offset.toNat = start := by
  intro e he
  cases es with
  | nil => simp at he
  | cons first es =>
    obtain rfl : first = e := by simpa using he
    exact h.1

theorem isChain : ∀ {start stop : Nat} {es : List Entry}, Tiled start es stop →
    es.IsChain fun e next => next.offset.toNat = e.stop
  | _, _, [], _ => .nil
  | _, _, [_], _ => .singleton _
  | _, _, _ :: _ :: _, ⟨_, h⟩ => .cons_cons h.1 h.isChain

theorem stop_of_mem_getLast? : ∀ {start stop : Nat} {es : List Entry}, Tiled start es stop →
    ∀ e ∈ es.getLast?, e.stop = stop
  | _, _, [], _, e, he => by simp at he
  | _, _, [last], ⟨_, h⟩, e, he => by
    obtain rfl : last = e := by simpa using he
    exact h
  | _, _, _ :: next :: es, ⟨_, h⟩, e, he => by
    rw [List.getLast?_cons_cons] at he
    exact h.stop_of_mem_getLast? e he

/-- There are neither gaps nor overlaps. -/
theorem existsUnique_covers {position : Nat} : ∀ {start stop : Nat} {es : List Entry}, Tiled start es stop →
    start ≤ position → position < stop → ∃! e, e ∈ es ∧ e.Covers position
  | start, stop, [], h, hstart, hstop => by
    simp only [Tiled] at h
    omega
  | start, stop, first :: es, ⟨hoffset, h⟩, hstart, hstop => by
    by_cases hfirst : position < first.stop
    · refine ⟨first, ⟨List.mem_cons_self, by omega, hfirst⟩, ?_⟩
      rintro e ⟨he, hcovers⟩
      rcases List.mem_cons.1 he with rfl | he
      · rfl
      · -- all other places start behind the first one
        have hbehind := (h.bounds_of_mem e he).1
        have hle := hcovers.1
        omega
    · obtain ⟨e, ⟨he, hcovers⟩, hunique⟩ := h.existsUnique_covers (by omega) hstop
      refine ⟨e, ⟨List.mem_cons_of_mem _ he, hcovers⟩, ?_⟩
      rintro e' ⟨he', hcovers'⟩
      rcases List.mem_cons.1 he' with rfl | he'
      · exact absurd hcovers'.2 hfirst
      · exact hunique e' ⟨he', hcovers'⟩

end Tiled

end TernBackend.Container

namespace TernBackend.ContainerContent

/-! ## Entries -/

/-- The bytes of fragments, one after the other. -/
def bytesOf (fragments : List (String × Bytes)) : Bytes := (fragments.map (·.2)).flatten

@[simp] theorem bytesOf_cons (name : String) (bytes : Bytes) (later : List (String × Bytes)) :
    bytesOf ((name, bytes) :: later) = bytes ++ bytesOf later := rfl

theorem names_entriesFrom (offset : UInt64) (fragments : List (String × Bytes)) :
    (entriesFrom offset fragments).map (·.name) = fragments.map (·.1) := by
  induction fragments generalizing offset with
  | nil => rfl
  | cons f fragments ih =>
    obtain ⟨name, bytes⟩ := f
    rw [entriesFrom, List.map_cons, List.map_cons, ih]

/-- The offset goes on by the length of a fragment, whether the sum fits into 64 bits or wraps around. -/
theorem entriesFrom_cons (start : Nat) (name : String) (bytes : Bytes) (later : List (String × Bytes)) :
    entriesFrom (.ofNat start) ((name, bytes) :: later) =
      ⟨name, .ofNat start, .ofNat bytes.length⟩ :: entriesFrom (.ofNat (start + bytes.length)) later := by
  rw [entriesFrom, UInt64.ofNat_add]

/-- The running sum of the lengths keeps the places tiled. -/
theorem tiled_entriesFrom (fragments : List (String × Bytes)) :
    ∀ start, start + (bytesOf fragments).length < 2 ^ 64 →
      Container.Tiled start (entriesFrom (.ofNat start) fragments) (start + (bytesOf fragments).length) := by
  induction fragments with
  | nil =>
    intro start h
    rfl
  | cons f fragments ih =>
    obtain ⟨name, bytes⟩ := f
    intro start h
    simp only [bytesOf_cons, List.length_append, ← Nat.add_assoc] at h ⊢
    have hoffset : (UInt64.ofNat start).toNat = start := Wire.toNat_count (by omega)
    have hlength : (UInt64.ofNat bytes.length).toNat = bytes.length := Wire.toNat_count (by omega)
    rw [entriesFrom_cons]
    refine ⟨hoffset, ?_⟩
    simp only [Container.Entry.stop, hoffset, hlength]
    exact ih (start + bytes.length) h

/-- In the place of an entry stand the bytes of the fragment of that name. -/
theorem mem_of_mem_entriesFrom (fragments : List (String × Bytes)) {e : Container.Entry} :
    ∀ before : Bytes, (before ++ bytesOf fragments).length < 2 ^ 64 →
      e ∈ entriesFrom (.ofNat before.length) fragments →
      (e.name, e.bytesIn (before ++ bytesOf fragments)) ∈ fragments := by
  induction fragments with
  | nil =>
    intro before h he
    simp [entriesFrom] at he
  | cons f fragments ih =>
    obtain ⟨name, bytes⟩ := f
    intro before h he
    have hsize := h
    simp only [bytesOf_cons, List.length_append] at hsize
    rw [entriesFrom_cons, ← List.length_append] at he
    rcases List.mem_cons.1 he with rfl | he
    · have hoffset : (UInt64.ofNat before.length).toNat = before.length := Wire.toNat_count (by omega)
      have hlength : (UInt64.ofNat bytes.length).toNat = bytes.length := Wire.toNat_count (by omega)
      simp [Container.Entry.bytesIn, hoffset, hlength]
    · -- for the entries behind the first one, its bytes are among those before them
      rw [bytesOf_cons, ← List.append_assoc] at h ⊢
      exact List.mem_cons_of_mem _ (ih (before ++ bytes) h he)

theorem names_index (c : ContainerContent) : c.index.names = c.fragments.keys := names_entriesFrom 0 _

/-! ## The front of the file -/

theorem length_encode (c : ContainerContent) :
    c.encode.length = 28 + c.index.encode.length + c.payload.length := by
  rw [encode, List.length_append, List.length_append, Container.Preamble.length_encode]
  rfl

theorem preamble_encode (path : Path) (c : ContainerContent) :
    Container.preamble path c.encode = .ok (c.preamble, c.index.encode ++ c.payload) := by
  rw [Container.preamble, encode, List.append_assoc, Container.Preamble.decode_encode]
  rfl

theorem framed_encode (c : ContainerContent) : Container.Framed c.encode := by
  by_contra hframed
  obtain ⟨corruption, herror⟩ := Container.preamble_of_not_framed ⟨[]⟩ hframed
  rw [preamble_encode] at herror
  cases herror

/-- What a reader takes for the preamble, and what is behind it. -/
theorem front_encode (c : ContainerContent) :
    Container.writtenPreamble c.encode = c.preamble ∧ c.encode.drop 28 = c.index.encode ++ c.payload := by
  have hread := Container.preamble_of_framed ⟨[]⟩ (framed_encode c)
  rw [preamble_encode] at hread
  simp only [Except.ok.injEq, Prod.mk.injEq] at hread
  exact ⟨hread.1.symm, hread.2.symm⟩

theorem writtenVersion_encode (c : ContainerContent) : Container.writtenVersion c.encode = c.abiVersion :=
  congrArg Container.Preamble.abiVersion (front_encode c).1

section

variable {c : ContainerContent} (hsize : c.encode.length < 2 ^ 64)
include hsize

theorem indexLength_encode : Container.indexLength c.encode = c.index.encode.length := by
  rw [length_encode] at hsize
  rw [← Container.toNat_indexLength, (front_encode c).1]
  exact Wire.toNat_count (by omega)

theorem drop_payload_encode : c.encode.drop (28 + Container.indexLength c.encode) = c.payload := by
  rw [← List.drop_drop, (front_encode c).2, indexLength_encode hsize, List.drop_left]

theorem holds_encode : Container.Holds c.encode c.index := by
  rw [Container.Holds, (front_encode c).2, indexLength_encode hsize, List.take_left]
  refine ⟨?_, List.prefix_refl _⟩
  rw [length_encode]
  omega

theorem decode_drop_encode : Container.Index.decode (c.encode.drop 28) = .ok (c.index, c.payload) := by
  have hindex : c.index.encode.length < 2 ^ 64 := by
    rw [length_encode] at hsize
    omega
  rw [(front_encode c).2]
  exact Container.Index.reads hindex c.payload

/-! ## The places in the index -/

theorem length_bytesOf_lt : (bytesOf c.fragments.entries).length < 2 ^ 64 := by
  have hpayload : c.payload = bytesOf c.fragments.entries := rfl
  rw [length_encode, hpayload] at hsize
  omega

theorem tiled_index : Container.Tiled 0 c.index.fragments c.payload.length := by
  have htiled := tiled_entriesFrom c.fragments.entries 0 (by simpa using length_bytesOf_lt hsize)
  rw [Nat.zero_add] at htiled
  exact htiled

theorem get?_of_mem_index {e : Container.Entry} (he : e ∈ c.index.fragments) :
    c.fragments.get? e.name = some (e.bytesIn c.payload) :=
  Table.get?_of_mem (mem_of_mem_entriesFrom c.fragments.entries [] (length_bytesOf_lt hsize) he)

/-- The sum of an offset and a length fits into 64 bits. -/
theorem toNat_offset_add_length {e : Container.Entry} (he : e ∈ c.index.fragments) :
    (e.offset + e.length).toNat = e.stop := by
  have hstop : e.offset.toNat + e.length.toNat ≤ c.payload.length := ((tiled_index hsize).bounds_of_mem e he).2
  rw [length_encode] at hsize
  rw [UInt64.toNat_add, Nat.mod_eq_of_lt (by omega), Container.Entry.stop]

end

/-! ## The result -/

/-- **Fragments tile the payload.** What is written of a content, if it is fewer than 2⁶⁴ bytes, has an index
behind the 28 bytes of the preamble, and the payload behind that; the length of the index in the preamble is the
number of its bytes. The index lists the names of the fragments, each once, in strictly increasing order. The first
offset is zero, each next one is the offset before it plus the length before it, and the last one with its length
makes the bytes of the payload; without fragments there are none. No sum of an offset and a length is lost in
64 bits. So every position of the payload belongs to exactly one entry. At the place of an entry stand the bytes of
its fragment, and with those of the last one the file ends. -/
theorem fragments_tile_payload {c : ContainerContent} (hsize : c.encode.length < 2 ^ 64) :
    c.encode.drop 28 = c.index.encode ++ c.payload ∧
    Container.Index.decode (c.encode.drop 28) = .ok (c.index, c.payload) ∧
    Container.indexLength c.encode = c.index.encode.length ∧
    c.index.names.Pairwise (· < ·) ∧
    (∀ name, name ∈ c.index.names ↔ c.fragments.get? name ≠ none) ∧
    (∀ e ∈ c.index.fragments.head?, e.offset = 0) ∧
    (c.index.fragments.IsChain fun e next => next.offset.toNat = e.offset.toNat + e.length.toNat) ∧
    (∀ e ∈ c.index.fragments.getLast?, e.offset.toNat + e.length.toNat = c.payload.length) ∧
    (c.index.fragments = [] → c.payload = []) ∧
    (∀ e ∈ c.index.fragments, (e.offset + e.length).toNat = e.offset.toNat + e.length.toNat ∧
      e.offset.toNat + e.length.toNat ≤ c.payload.length) ∧
    (∀ position < c.payload.length, ∃! e, e ∈ c.index.fragments ∧ e.Covers position) ∧
    (∀ e ∈ c.index.fragments, c.fragments.get? e.name = some (e.bytesIn c.payload)) ∧
    (∀ e ∈ c.index.fragments.getLast?, ∃ bytes, c.fragments.get? e.name = some bytes ∧ bytes <:+ c.encode) := by
  have htiled := tiled_index hsize
  refine ⟨(front_encode c).2, decode_drop_encode hsize, indexLength_encode hsize, ?_, ?_, ?_, htiled.isChain,
    htiled.stop_of_mem_getLast?, ?_, ?_, ?_, fun e he => get?_of_mem_index hsize he, ?_⟩
  · rw [names_index]
    exact (Table.pairwise_keys _).imp compareOfLessAndEq_eq_lt.1
  · intro name
    rw [names_index]
    exact Table.mem_keys_iff
  · intro e he
    rw [← UInt64.toNat_inj]
    exact htiled.offset_of_mem_head? e he
  · intro hempty
    rw [hempty] at htiled
    exact List.length_eq_zero_iff.1 htiled.symm
  · intro e he
    exact ⟨toNat_offset_add_length hsize he, (htiled.bounds_of_mem e he).2⟩
  · intro position hposition
    exact htiled.existsUnique_covers (Nat.zero_le _) hposition
  · intro e he
    have hlast := Container.Entry.bytesIn_isSuffix (htiled.stop_of_mem_getLast? e he)
    refine ⟨e.bytesIn c.payload, get?_of_mem_index hsize (List.mem_of_getLast? he), ?_⟩
    exact hlast.trans (List.suffix_append _ _)

/-- An empty fragment between two others has a place that covers nothing, and starts where the one behind it does. -/
theorem fragments_tile_payload_empty_fragment :
    let c : ContainerContent := [("c", [7]), ("b", []), ("a", [9]), ("a", [1, 2])].foldl
      (fun c (f : String × Bytes) => c.addFragment f.1 f.2) { moduleName := "m", abiVersion := .current }
    c.encode.length < 2 ^ 64 ∧ c.index.fragments = [⟨"a", 0, 2⟩, ⟨"b", 2, 0⟩, ⟨"c", 2, 1⟩] ∧
      c.encode.drop (28 + Container.indexLength c.encode) = [1, 2, 7] ∧
      (∃! e, e ∈ c.index.fragments ∧ e.Covers 2) ∧ [7] <:+ c.encode := by
  intro c
  have hsize : c.encode.length < 2 ^ 64 := by
    decide +kernel
  have hindex : c.index.fragments = [⟨"a", 0, 2⟩, ⟨"b", 2, 0⟩, ⟨"c", 2, 1⟩] := by
    decide +kernel
  have hpayload : c.payload = [1, 2, 7] := by
    decide +kernel
  obtain ⟨hdrop, -, hlength, -, -, -, -, -, -, -, hcovers, -, hlast⟩ := fragments_tile_payload hsize
  obtain ⟨bytes, hbytes, hsuffix⟩ := hlast ⟨"c", 2, 1⟩ (by simp [hindex])
  have hc : bytes = [7] := by
    have hget : c.fragments.get? "c" = some [7] := by
      decide +kernel
    rw [hget] at hbytes
    exact (Option.some.inj hbytes).symm
  refine ⟨hsize, hindex, ?_, hcovers 2 (by simp [hpayload]), hc ▸ hsuffix⟩
  rw [← List.drop_drop, hdrop, hlength, List.drop_left, hpayload]

end TernBackend.ContainerContent
