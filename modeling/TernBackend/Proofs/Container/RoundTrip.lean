import TernBackend.Files.FileTree
import TernBackend.Image.Basic
import TernBackend.Proofs.Container.Tiling

/-!
# Containers round trip

What a file tells that holds the bytes of a container is what the container was made of, as long as the
bytes are fewer than 2⁶⁴. Such a file is framed and holds the index that was written, so what it tells is
known from what any file tells; and the place that a reader computes for a fragment is where its bytes
stand, as the fragments tile the payload (`fragment_encode`).
-/

namespace TernBackend.ContainerContent

/-! ## What the file tells -/

section

variable {c : ContainerContent} (path : Path)

theorem abiVersion_encode (c : ContainerContent) :
    Container.abiVersion path c.encode = .ok c.abiVersion := by
  rw [Container.abiVersion, preamble_encode]
  rfl

theorem header_encode (h : c.encode.length < 2 ^ 64) :
    Container.header path c.encode c.abiVersion =
      .ok ⟨c.moduleName, .ofBytes c.tableOfContentsBytes⟩ := by
  have htable : TableOfContents.ofEncoded c.index.tableOfContents =
      .ok (.ofBytes c.tableOfContentsBytes) := TableOfContents.ofEncoded_ofBytes _
  rw [← writtenVersion_encode c]
  exact Container.header_of_holds path (framed_encode c) (holds_encode h) htable

theorem header_encode_of_ne {version : AbiVersion} (hne : version ≠ c.abiVersion) :
    Container.header path c.encode version = .error (.versionMismatch path version c.abiVersion) := by
  rw [← writtenVersion_encode c] at hne ⊢
  exact Container.header_of_other_version path (framed_encode c) hne.symm

theorem fragmentNames_encode (h : c.encode.length < 2 ^ 64) :
    Container.fragmentNames path c.encode = .ok c.fragments.keys := by
  rw [← names_index]
  exact Container.fragmentNames_of_holds path (framed_encode c) (holds_encode h)

theorem fragment_encode_of_none (h : c.encode.length < 2 ^ 64) {name : String}
    (hnone : c.fragments.get? name = none) :
    Container.fragment path c.encode name = .error (.fragmentNotFound path name) := by
  have hentry : c.index.entry? name = none := by
    rw [Container.Index.entry?_eq_none_iff, names_index, Table.mem_keys_iff]
    exact not_not.2 hnone
  exact Container.fragment_of_no_entry path (framed_encode c) (holds_encode h) hentry

theorem fragment_encode (h : c.encode.length < 2 ^ 64) {name : String} {bytes : Bytes}
    (hsome : c.fragments.get? name = some bytes) : Container.fragment path c.encode name = .ok bytes := by
  have hname : name ∈ c.index.names := by
    rw [names_index, Table.mem_keys_iff, hsome]
    simp
  obtain ⟨e, he, rfl, hentry⟩ := Container.Index.exists_entry_of_mem hname
  have hbytes : bytes = e.bytesIn c.payload := by
    rw [get?_of_mem_index h he] at hsome
    exact (Option.some.inj hsome).symm
  have hinside : 28 + Container.indexLength c.encode + e.offset.toNat + e.length.toNat ≤ c.encode.length := by
    have hstop : e.offset.toNat + e.length.toNat ≤ c.payload.length := ((tiled_index h).bounds_of_mem e he).2
    rw [indexLength_encode h, length_encode]
    omega
  rw [Container.fragment_of_inside path (framed_encode c) h (holds_encode h) hentry hinside, ← List.drop_drop,
    drop_payload_encode h, hbytes, Container.Entry.bytesIn]

end

/-! ## Building a container -/

/-- A call on the builder of a container. -/
inductive BuilderCall where
  | fragment (name : String) (bytes : Bytes)
  | tableOfContents (bytes : Bytes)

namespace BuilderCall

/-- The content after a call. -/
def apply (c : ContainerContent) : BuilderCall → ContainerContent
  | fragment name bytes => c.addFragment name bytes
  | tableOfContents bytes => c.withTableOfContents bytes

/-- The bytes of a call that adds a fragment of the name. -/
def fragment? (name : String) : BuilderCall → Option Bytes
  | fragment other bytes => if other = name then some bytes else none
  | tableOfContents _ => none

/-- The bytes of a call that sets the table of contents. -/
def tableOfContents? : BuilderCall → Option Bytes
  | fragment _ _ => none
  | tableOfContents bytes => some bytes

end BuilderCall

/-- What a sequence of calls makes of a new builder. -/
def build (moduleName : String) (abiVersion : AbiVersion) (calls : List BuilderCall) : ContainerContent :=
  calls.foldl BuilderCall.apply { moduleName, abiVersion }

variable (moduleName : String) (abiVersion : AbiVersion)

theorem build_concat (calls : List BuilderCall) (call : BuilderCall) :
    build moduleName abiVersion (calls ++ [call]) = call.apply (build moduleName abiVersion calls) := by
  rw [build, List.foldl_append]
  rfl

theorem moduleName_build (calls : List BuilderCall) :
    (build moduleName abiVersion calls).moduleName = moduleName := by
  induction calls using List.reverseRecOn with
  | nil => rfl
  | append_singleton calls call ih =>
    rw [build_concat]
    cases call <;> exact ih

theorem abiVersion_build (calls : List BuilderCall) :
    (build moduleName abiVersion calls).abiVersion = abiVersion := by
  induction calls using List.reverseRecOn with
  | nil => rfl
  | append_singleton calls call ih =>
    rw [build_concat]
    cases call <;> exact ih

/-- The table of contents is the one that was set last. -/
theorem tableOfContents_build (calls : List BuilderCall) :
    (build moduleName abiVersion calls).tableOfContents =
      (calls.filterMap BuilderCall.tableOfContents?).getLast? := by
  induction calls using List.reverseRecOn with
  | nil => rfl
  | append_singleton calls call ih =>
    rw [build_concat, List.filterMap_append]
    cases call with
    | fragment name bytes => exact ih.trans (congrArg List.getLast? (List.append_nil _).symm)
    | tableOfContents bytes => exact List.getLast?_concat.symm

/-- The bytes of a fragment are those that were added last under its name. -/
theorem get?_build (calls : List BuilderCall) (name : String) :
    (build moduleName abiVersion calls).fragments.get? name =
      (calls.filterMap (BuilderCall.fragment? name)).getLast? := by
  induction calls using List.reverseRecOn with
  | nil => rfl
  | append_singleton calls call ih =>
    rw [build_concat, List.filterMap_append, List.getLast?_append, ← ih]
    cases call with
    | fragment other bytes =>
      have hinsert := Table.get?_insert (build moduleName abiVersion calls).fragments other name bytes
      by_cases hname : other = name
      · rw [if_pos hname.symm] at hinsert
        simpa [BuilderCall.apply, addFragment, BuilderCall.fragment?, hname] using hinsert
      · rw [if_neg (Ne.symm hname)] at hinsert
        simpa [BuilderCall.apply, addFragment, BuilderCall.fragment?, hname] using hinsert
    | tableOfContents bytes => rfl

theorem mem_keys_build (calls : List BuilderCall) (name : String) :
    name ∈ (build moduleName abiVersion calls).fragments.keys ↔
      ∃ bytes, BuilderCall.fragment name bytes ∈ calls := by
  rw [Table.mem_keys_iff, get?_build, ne_eq, List.getLast?_eq_none_iff]
  constructor
  · intro hne
    obtain ⟨bytes, hbytes⟩ := List.exists_mem_of_ne_nil _ hne
    obtain ⟨call, hcall, hsome⟩ := List.mem_filterMap.1 hbytes
    cases call with
    | fragment other content =>
      by_cases hname : other = name
      · exact ⟨content, hname ▸ hcall⟩
      · simp [BuilderCall.fragment?, hname] at hsome
    | tableOfContents content => cases hsome
  · rintro ⟨bytes, hcall⟩ hnil
    have hmem : bytes ∈ calls.filterMap (BuilderCall.fragment? name) :=
      List.mem_filterMap.2 ⟨_, hcall, if_pos rfl⟩
    rw [hnil] at hmem
    cases hmem

/-! ## The result -/

/-- **Containers round trip.** When the file of a path holds what the builder wrote after some calls, and
that is fewer than 2⁶⁴ bytes: the file tells the version of the builder; under that version it has a
header with the name of the module and with the table of contents that was set last, or else the listing
of the fragments; any other version is refused; the names of the fragments are those that were added, in
strictly increasing order; and the bytes of a fragment are those that were added last under its name. -/
theorem container_roundTrip (calls : List BuilderCall) {fs : FileSystem} {path : Path}
    (hfile : fs.library path = .ok (build moduleName abiVersion calls).encode)
    (hsize : (build moduleName abiVersion calls).encode.length < 2 ^ 64) :
    fs.abiVersion path = .ok abiVersion ∧
    (∃ names header, fs.fragmentNames path = .ok names ∧ names.Pairwise (· < ·) ∧
      (∀ name, name ∈ names ↔ ∃ bytes, BuilderCall.fragment name bytes ∈ calls) ∧
      fs.header path abiVersion = .ok header ∧ header.moduleName = moduleName ∧
      header.tableOfContents.bytes =
        (calls.filterMap BuilderCall.tableOfContents?).getLast?.getD (PackageListing.encode ⟨names⟩)) ∧
    (∀ version, version ≠ abiVersion →
      fs.header path version = .error (.versionMismatch path version abiVersion)) ∧
    (∀ name bytes, (calls.filterMap (BuilderCall.fragment? name)).getLast? = some bytes →
      fs.fragment path name = .ok bytes) ∧
    (∀ name, (∀ bytes, BuilderCall.fragment name bytes ∉ calls) →
      fs.fragment path name = .error (.fragmentNotFound path name)) := by
  have hread : ∀ {β : Type} (tell : Bytes → Answer β),
      (fs.library path >>= tell) = tell (build moduleName abiVersion calls).encode := fun tell => by
    rw [hfile]
    rfl
  have hmodule := moduleName_build moduleName abiVersion calls
  have hversion := abiVersion_build moduleName abiVersion calls
  have htable := tableOfContents_build moduleName abiVersion calls
  refine ⟨?_, ⟨_, ⟨moduleName, .ofBytes (build moduleName abiVersion calls).tableOfContentsBytes⟩, ?_, ?_,
      mem_keys_build moduleName abiVersion calls, ?_, rfl, ?_⟩,
    fun version hne => ?_, fun name bytes hlast => ?_, fun name hnone => ?_⟩
  · rw [FileSystem.abiVersion, hread, abiVersion_encode, hversion]
  · rw [FileSystem.fragmentNames, hread, fragmentNames_encode path hsize]
  · exact (Table.pairwise_keys _).imp compareOfLessAndEq_eq_lt.1
  · have hheader := header_encode path hsize
    rw [hversion, hmodule] at hheader
    rw [FileSystem.header, hread, hheader]
  · rw [← htable]
    rfl
  · have hheader := header_encode_of_ne path (hversion.symm ▸ hne)
    rw [hversion] at hheader
    rw [FileSystem.header, hread, hheader]
  · rw [FileSystem.fragment, hread]
    exact fragment_encode path hsize ((get?_build moduleName abiVersion calls name).trans hlast)
  · rw [FileSystem.fragment, hread]
    refine fragment_encode_of_none path hsize ?_
    by_cases hget : (build moduleName abiVersion calls).fragments.get? name = none
    · exact hget
    · obtain ⟨bytes, hcall⟩ := (mem_keys_build moduleName abiVersion calls name).1 (Table.mem_keys_iff.2 hget)
      exact absurd hcall (hnone bytes)

/-- A module with an empty fragment and a fragment that was added twice. -/
theorem container_roundTrip_replaced :
    let calls : List BuilderCall := [.fragment "m.b" [1], .fragment "m.a" [], .fragment "m.b" [2, 3]]
    let bytes := (build "m" .current calls).encode
    let fs := (FileTree.ofFiles [(Utf8.encode "lib", bytes)]).toFileSystem
    bytes.length < 2 ^ 64 ∧ fs.fragment (.ofText "lib") "m.a" = .ok [] ∧
      fs.fragment (.ofText "lib") "m.b" = .ok [2, 3] ∧
      fs.fragment (.ofText "lib") "m.c" = .error (.fragmentNotFound (.ofText "lib") "m.c") := by
  intro calls bytes fs
  have hfile : fs.library (.ofText "lib") = .ok bytes := by
    rfl
  have hsize : bytes.length < 2 ^ 64 := by
    decide +kernel
  obtain ⟨-, -, -, hfound, hmissing⟩ := container_roundTrip "m" .current calls hfile hsize
  exact ⟨hsize, hfound _ _ rfl, hfound _ _ rfl, hmissing _ (by simp [calls])⟩

end TernBackend.ContainerContent
