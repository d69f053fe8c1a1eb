import TernBackend.Proofs.Container.RoundTrip

/-!
# The bytes of a container are a canonical form

Containers that hold the same are written as the same bytes, however they were put together; and as a container
tells all that it holds, no others are. What is compared is the name of the module, the version, the fragments
under their names and the bytes of the table of contents, whether these were set or are the listing of the
fragments (`encode_eq_iff`, and `canonical_bytes` for the calls on two builders).
-/

namespace TernBackend.ContainerContent

/-! ## Contents -/

theorem fragment_encode_eq (path : Path) {c : ContainerContent} (hsize : c.encode.length < 2 ^ 64) (name : String) :
    Container.fragment path c.encode name =
      (c.fragments.get? name).elim (.error (.fragmentNotFound path name)) .ok := by
  cases hget : c.fragments.get? name with
  | none => exact fragment_encode_of_none path hsize hget
  | some bytes => exact fragment_encode path hsize hget

/-- What a container holds can be told from its bytes. -/
theorem eq_of_encode_eq {c c' : ContainerContent} (hsize : c.encode.length < 2 ^ 64) (h : c.encode = c'.encode) :
    c.moduleName = c'.moduleName ∧ c.abiVersion = c'.abiVersion ∧ c.fragments = c'.fragments ∧
      c.tableOfContentsBytes = c'.tableOfContentsBytes := by
  have hsize' : c'.encode.length < 2 ^ 64 := h ▸ hsize
  have hversion := abiVersion_encode ⟨[]⟩ c
  rw [h, abiVersion_encode, Except.ok.injEq] at hversion
  have hheader := header_encode ⟨[]⟩ hsize
  rw [h, ← hversion, header_encode ⟨[]⟩ hsize', Except.ok.injEq, MetadataHeader.mk.injEq] at hheader
  obtain ⟨hmodule, htable⟩ := hheader
  refine ⟨hmodule.symm, hversion.symm, Table.ext_get? fun name => ?_, (congrArg TableOfContents.bytes htable).symm⟩
  -- a fragment of either is what the one file answers
  have hfragment := fragment_encode_eq ⟨[]⟩ hsize name
  rw [h, fragment_encode_eq ⟨[]⟩ hsize'] at hfragment
  cases hget : c.fragments.get? name <;> cases hget' : c'.fragments.get? name <;> simp_all

/-- Only the bytes of the table of contents are written, not how they came about. -/
theorem encode_congr {c c' : ContainerContent} (hmodule : c.moduleName = c'.moduleName)
    (hversion : c.abiVersion = c'.abiVersion) (hfragments : c.fragments = c'.fragments)
    (htable : c.tableOfContentsBytes = c'.tableOfContentsBytes) : c.encode = c'.encode := by
  have hindex : c.index = c'.index := by
    rw [index, index, hmodule, htable, hfragments]
  have hpayload : c.payload = c'.payload := by
    rw [payload, payload, hfragments]
  rw [encode, encode, preamble, preamble, hindex, hpayload, hversion]

theorem encode_eq_iff {c c' : ContainerContent} (hsize : c.encode.length < 2 ^ 64) :
    c.encode = c'.encode ↔ c.moduleName = c'.moduleName ∧ c.abiVersion = c'.abiVersion ∧
      c.fragments = c'.fragments ∧ c.tableOfContentsBytes = c'.tableOfContentsBytes := by
  constructor
  · exact eq_of_encode_eq hsize
  · rintro ⟨hmodule, hversion, hfragments, htable⟩
    exact encode_congr hmodule hversion hfragments htable

/-! ## Calls on a builder -/

/-- The name of a fragment that a call adds. -/
def BuilderCall.name? : BuilderCall → Option String
  | fragment name _ => some name
  | tableOfContents _ => none

/-- The names under which fragments are added, in increasing order. -/
def addedNames (calls : List BuilderCall) : List String := (calls.filterMap BuilderCall.name?).toFinset.sort

/-- The bytes that are added last under a name. -/
def lastAdded (calls : List BuilderCall) (name : String) : Option Bytes :=
  (calls.filterMap (BuilderCall.fragment? name)).getLast?

/-- The table of contents that is set last, or else the listing of the added names. -/
def chosenTable (calls : List BuilderCall) : Bytes :=
  (calls.filterMap BuilderCall.tableOfContents?).getLast?.getD (PackageListing.encode ⟨addedNames calls⟩)

theorem mem_addedNames {calls : List BuilderCall} {name : String} :
    name ∈ addedNames calls ↔ ∃ bytes, BuilderCall.fragment name bytes ∈ calls := by
  rw [addedNames, Finset.mem_sort, List.mem_toFinset, List.mem_filterMap]
  constructor
  · rintro ⟨⟨other, bytes⟩ | bytes, hcall, hname⟩
    · cases hname
      exact ⟨bytes, hcall⟩
    · cases hname
  · rintro ⟨bytes, hcall⟩
    exact ⟨_, hcall, rfl⟩

variable (moduleName : String) (abiVersion : AbiVersion)

theorem keys_build (calls : List BuilderCall) :
    (build moduleName abiVersion calls).fragments.keys = addedNames calls := by
  have hkeys : (build moduleName abiVersion calls).fragments.keys.Pairwise (· < ·) :=
    (Table.pairwise_keys _).imp compareOfLessAndEq_eq_lt.1
  refine hkeys.eq_of_mem_iff (Finset.sortedLT_sort _).pairwise fun name => ?_
  rw [mem_keys_build, ← mem_addedNames, addedNames]

theorem tableOfContentsBytes_build (calls : List BuilderCall) :
    (build moduleName abiVersion calls).tableOfContentsBytes = chosenTable calls := by
  rw [tableOfContentsBytes, tableOfContents_build, keys_build]
  rfl

theorem fragments_build_eq_iff {moduleName' : String} {abiVersion' : AbiVersion} {calls calls' : List BuilderCall} :
    (build moduleName abiVersion calls).fragments = (build moduleName' abiVersion' calls').fragments ↔
      ∀ name, lastAdded calls name = lastAdded calls' name := by
  constructor
  · intro h name
    rw [lastAdded, lastAdded, ← get?_build moduleName abiVersion, ← get?_build moduleName' abiVersion', h]
  · intro h
    refine Table.ext_get? fun name => ?_
    rw [get?_build, get?_build]
    exact h name

/-! ## The result -/

/-- **The bytes of a container are a canonical form of its content.** Two builders, after any calls, write the
same bytes just when they were made for the same module and version, the bytes added last under each name are the
same, and the tables of contents have the same bytes, be it those that were set last or the listing of the added
names. Neither the order of the calls nor what was replaced leaves a trace, and no two contents are written alike.
The bytes are fewer than 2⁶⁴, so that all lengths and offsets fit into their fields. -/
theorem canonical_bytes (moduleName moduleName' : String) (abiVersion abiVersion' : AbiVersion)
    (calls calls' : List BuilderCall) (hsize : (build moduleName abiVersion calls).encode.length < 2 ^ 64) :
    (build moduleName abiVersion calls).encode = (build moduleName' abiVersion' calls').encode ↔
      moduleName = moduleName' ∧ abiVersion = abiVersion' ∧
        (∀ name, lastAdded calls name = lastAdded calls' name) ∧ chosenTable calls = chosenTable calls' := by
  rw [encode_eq_iff hsize, fragments_build_eq_iff]
  simp only [moduleName_build, abiVersion_build, tableOfContentsBytes_build]

/-- Two builders that add in another order, replace, and set the listing by hand, and one that moves a byte from a
fragment to its neighbour. -/
theorem canonical_bytes_neighbour :
    let calls : List BuilderCall := [.fragment "b" [9], .fragment "a" [1], .fragment "b" []]
    let reordered : List BuilderCall :=
      [.tableOfContents (PackageListing.encode ⟨["a", "b"]⟩), .fragment "b" [], .fragment "a" [1]]
    let moved : List BuilderCall := [.fragment "a" [], .fragment "b" [1]]
    (build "m" .current calls).encode.length < 2 ^ 64 ∧
      (build "m" .current calls).encode = (build "m" .current reordered).encode ∧
      (build "m" .current calls).encode ≠ (build "m" .current moved).encode := by
  intro calls reordered moved
  have hsize : (build "m" .current calls).encode.length < 2 ^ 64 := by
    decide +kernel
  refine ⟨hsize, (canonical_bytes "m" "m" .current .current calls reordered hsize).2 ?_, fun h => ?_⟩
  · have hnames : addedNames calls = ["a", "b"] := by
      rw [← keys_build "m" .current]
      decide +kernel
    refine ⟨rfl, rfl, fun name => ?_, ?_⟩
    · by_cases ha : "a" = name
      · subst ha
        decide
      · by_cases hb : "b" = name
        · subst hb
          decide
        · simp [calls, reordered, lastAdded, BuilderCall.fragment?, ha, hb]
    · exact congrArg (fun names => PackageListing.encode ⟨names⟩) hnames
  · obtain ⟨-, -, hadded, -⟩ := (canonical_bytes "m" "m" .current .current calls moved hsize).1 h
    exact absurd (hadded "a") (by decide)

end TernBackend.ContainerContent
