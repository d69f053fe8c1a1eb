import TernBackend.Proofs.Container.RoundTrip
import TernBackend.Proofs.Image.Faithfulness

/-!
# Materialization

A file that holds the bytes of a container without a table of contents of its own tells the module of its
fragments: the listing that was written into the index names them, and each is found under its name
(`ContainerContent.descriptor_encode`). An image of the file is true to it, so what was put into the container
comes out of the image (`materialization`).
-/

namespace TernBackend

/-! ## Containers without a table of contents of their own -/

namespace ContainerContent

variable {c : ContainerContent} {fs : FileSystem} {path : Path} {config : SessionConfig}

/-- The listing stands in the index in base64, which takes no fewer bytes. -/
theorem length_tableOfContentsBytes_le (c : ContainerContent) :
    c.tableOfContentsBytes.length ≤ c.encode.length := by
  have hindex : (Utf8.encode c.index.tableOfContents).length ≤ c.index.encode.length := by
    rw [Container.Index.length_encode]
    omega
  have htext : Utf8.encode c.index.tableOfContents = Base64.encode c.tableOfContentsBytes := Base64.encode_text _
  rw [htext, Base64.length_encode] at hindex
  rw [length_encode]
  omega

theorem library_header_encode (hfile : fs.library path = .ok c.encode) (hsize : c.encode.length < 2 ^ 64) :
    fs.header path c.abiVersion = .ok ⟨c.moduleName, .ofBytes c.tableOfContentsBytes⟩ := by
  rw [FileSystem.header_of_library hfile, header_encode path hsize]

theorem library_header_encode_of_ne (hfile : fs.library path = .ok c.encode) {version : AbiVersion}
    (hne : version ≠ c.abiVersion) :
    fs.header path version = .error (.versionMismatch path version c.abiVersion) := by
  rw [FileSystem.header_of_library hfile, header_encode_of_ne path hne]

/-- The module of a file: the fragments of the container, each under its name. -/
theorem descriptor_encode (hfile : fs.library path = .ok c.encode) (hsize : c.encode.length < 2 ^ 64)
    (htable : c.tableOfContents = none) (hversion : config.abiVersion = c.abiVersion) :
    ∃ m : ModuleDescriptor, fs.descriptor PackageListing.deserialize path config = .answered (.ok m) ∧
      m.name = c.moduleName ∧ ∀ name, m.package? name = (c.fragments.get? name).map (⟨name, ·⟩) := by
  have hlisting : c.tableOfContentsBytes = PackageListing.encode ⟨c.fragments.keys⟩ := by
    rw [tableOfContentsBytes, htable]
    rfl
  -- the listing is shorter than the file that it stands in, so its lengths fit
  have hdecode : PackageListing.decode c.tableOfContentsBytes = .ok ⟨c.fragments.keys⟩ := by
    have hlength := length_tableOfContentsBytes_le c
    have hread := PackageListing.decode_encode (l := ⟨c.fragments.keys⟩) (hlisting ▸ by omega) []
    rwa [List.append_nil, ← hlisting] at hread
  have hfragments : ∀ name ∈ c.fragments.keys,
      fs.fragment path name = .ok ((c.fragments.get? name).getD []) := by
    intro name hname
    obtain ⟨bytes, hbytes⟩ := Option.ne_none_iff_exists'.1 (Table.mem_keys_iff.1 hname)
    rw [FileSystem.fragment_of_library hfile, fragment_encode path hsize hbytes, hbytes]
    rfl
  rw [FileSystem.descriptor, hversion, library_header_encode hfile hsize]
  refine ⟨.ofLoaded c.moduleName (c.fragments.keys.map fun name => (name, (c.fragments.get? name).getD [])),
    congrArg Prod.fst (PackageListing.runOn_deserialize hdecode hfragments), rfl, fun name => ?_⟩
  rw [ModuleDescriptor.package?_ofLoaded]
  by_cases hname : name ∈ c.fragments.keys
  · obtain ⟨bytes, hbytes⟩ := Option.ne_none_iff_exists'.1 (Table.mem_keys_iff.1 hname)
    rw [if_pos hname, hbytes]
    rfl
  · have hnone : c.fragments.get? name = none := not_not.1 fun hsome => hname (Table.mem_keys_iff.2 hsome)
    rw [if_neg hname, hnone]
    rfl

/-! ### Images of such containers -/

section

variable {start : Workspace Unit ModuleDescriptor} {id : ImageId} {image : LibraryImage Unit ModuleDescriptor}
  {calls : List (WorkspaceCall Unit)} (hrest : start.AtRest) (himage : start.image? id = some image)
  (hfaithful : start.FaithfulAt (fun _ => PackageListing.deserialize) id)
  (hfile : start.files.library image.path = .ok c.encode)
  (hcalls : ∀ fs, .files fs ∈ calls → fs.library image.path = .ok c.encode)
include hrest himage hfaithful hfile hcalls

/-- Under its own version a container gives its module, whenever it is asked for. -/
theorem module_of_mem_served (hsize : c.encode.length < 2 ^ 64) (htable : c.tableOfContents = none)
    (hversion : image.config.abiVersion = c.abiVersion) :
    ∃ m : ModuleDescriptor, m.name = c.moduleName ∧
      (∀ name, m.package? name = (c.fragments.get? name).map (⟨name, ·⟩)) ∧
      ∀ ws call, (ws, call) ∈ start.served (fun _ => PackageListing.deserialize) calls →
        (ws.moduleName id).1 = .ok c.moduleName ∧
          (ws.moduleDescriptor (fun _ => PackageListing.deserialize) id).1 = .answered (.ok m) := by
  obtain ⟨m, hm, hname, hpackages⟩ := descriptor_encode hfile hsize htable hversion
  refine ⟨m, hname, hpackages, fun ws call hmem => ?_⟩
  have hanswers := Workspace.answers_of_mem_served (fun _ => PackageListing.onlyFragments_deserialize) hrest
    himage hfaithful (fun fs hfs => (hcalls fs hfs).trans hfile.symm) hmem
  rw [hversion, library_header_encode hfile hsize] at hanswers
  exact ⟨hanswers.1, hanswers.2.trans hm⟩

/-- Under another version a container is refused, whenever it is asked for. -/
theorem mismatch_of_mem_served (hversion : image.config.abiVersion ≠ c.abiVersion)
    (ws : Workspace Unit ModuleDescriptor) (call : WorkspaceCall Unit)
    (hmem : (ws, call) ∈ start.served (fun _ => PackageListing.deserialize) calls) :
    (ws.moduleName id).1 = .error (.versionMismatch image.path image.config.abiVersion c.abiVersion) ∧
      (ws.moduleDescriptor (fun _ => PackageListing.deserialize) id).1 =
        .answered (.error (.versionMismatch image.path image.config.abiVersion c.abiVersion)) := by
  have hanswers := Workspace.answers_of_mem_served (fun _ => PackageListing.onlyFragments_deserialize) hrest
    himage hfaithful (fun fs hfs => (hcalls fs hfs).trans hfile.symm) hmem
  rw [FileSystem.descriptor, library_header_encode_of_ne hfile hversion] at hanswers
  exact hanswers

/-- The deserializer is called with a header only, and under another version there is none. -/
theorem deserializations_of_mismatch (hversion : image.config.abiVersion ≠ c.abiVersion) :
    ∃ last, (start.serveAll (fun _ => PackageListing.deserialize) calls).image? id = some last ∧
      last.deserializations = 0 := by
  obtain ⟨hend, hcontinues⟩ := Workspace.serveAll_continues
    (fun _ request => (PackageListing.onlyFragments_deserialize request).neverPanics) calls hrest
  obtain ⟨hlibrary, hlast⟩ := Workspace.serveAll_faithful
    (fun _ => PackageListing.onlyFragments_deserialize) calls hrest himage hfaithful
    fun fs hfs => (hcalls fs hfs).trans hfile.symm
  obtain ⟨last, himage', honward⟩ := hcontinues id image himage
  refine ⟨last, himage', ?_⟩
  -- had it been called, there would be a header, and the files refuse one
  by_contra hne
  obtain ⟨header, hstored⟩ := (hend id last himage').1.header_ok hne
  have hok := (hlast last himage').header _ hstored
  rw [honward.path_eq, honward.config_eq, FileSystem.header_congr hlibrary,
    library_header_encode_of_ne hfile hversion] at hok
  cases hok

end

/-! ### Additions of fragments -/

variable (moduleName : String) (abiVersion : AbiVersion) (additions : List (String × Bytes))

/-- The content after fragments have been added to a new builder. -/
def ofAdditions : ContainerContent := build moduleName abiVersion (additions.map fun a => .fragment a.1 a.2)

theorem fragments_ofAdditions : (ofAdditions moduleName abiVersion additions).fragments = .ofList additions := by
  unfold ofAdditions
  induction additions using List.reverseRecOn with
  | nil => rfl
  | append_singleton additions a ih =>
    rw [List.map_append, List.map_singleton, build_concat, Table.ofList_concat, ← ih]
    rfl

theorem moduleName_ofAdditions : (ofAdditions moduleName abiVersion additions).moduleName = moduleName :=
  moduleName_build moduleName abiVersion _

theorem abiVersion_ofAdditions : (ofAdditions moduleName abiVersion additions).abiVersion = abiVersion :=
  abiVersion_build moduleName abiVersion _

theorem tableOfContents_ofAdditions : (ofAdditions moduleName abiVersion additions).tableOfContents = none := by
  rw [ofAdditions, tableOfContents_build, List.filterMap_map]
  simp [Function.comp_def, BuilderCall.tableOfContents?]

end ContainerContent

/-! ## The result -/

/-- **Materialization.** A builder gets a name, a version and any additions of fragments, but no table of contents
of its own, and what it writes is the library at a path (fewer than 2⁶⁴ bytes). After any calls an image of that
library is opened, and any calls follow, with any changes to the files that leave the library alone. Under the
version of the builder, a call for the name is answered with that name at any point of the run, and a call for the
descriptor with one and the same module. The module has that name. Under every name that was added it has a package
of that name with the bytes that were added last, and it has no other packages. Under any other version both calls
are refused for the version, and the deserializer is not called. -/
theorem materialization (moduleName : String) (abiVersion : AbiVersion) (additions : List (String × Bytes))
    (files : FileSystem) (earlier calls : List (WorkspaceCall Unit)) (path : Path) (config : SessionConfig)
    (hfile : (Workspace.serveAll (fun _ => PackageListing.deserialize) ⟨files, []⟩ earlier).files.library path =
      .ok (ContainerContent.ofAdditions moduleName abiVersion additions).encode)
    (hsize : (ContainerContent.ofAdditions moduleName abiVersion additions).encode.length < 2 ^ 64)
    (hcalls : ∀ fs, .files fs ∈ calls →
      fs.library path = .ok (ContainerContent.ofAdditions moduleName abiVersion additions).encode) :
    let deserialize : Unit → Deserialization.Deserializer ModuleDescriptor := fun _ => PackageListing.deserialize
    let ws := Workspace.serveAll deserialize ⟨files, []⟩ earlier
    let id : ImageId := ⟨ws.images.length⟩
    let opened := (ws.openImage path config ()).2
    let mismatch : LibraryError := .versionMismatch path config.abiVersion abiVersion
    (ws.openImage path config ()).1 = .ok id ∧
    (config.abiVersion = abiVersion →
      ∃ m : ModuleDescriptor, m.name = moduleName ∧
        (∀ name, m.package? name = (additions.reverse.lookup name).map (⟨name, ·⟩)) ∧
        ∀ ws' call, (ws', call) ∈ opened.served deserialize calls →
          (ws'.moduleName id).1 = .ok moduleName ∧
            (ws'.moduleDescriptor deserialize id).1 = .answered (.ok m)) ∧
    (config.abiVersion ≠ abiVersion →
      (∀ ws' call, (ws', call) ∈ opened.served deserialize calls →
        (ws'.moduleName id).1 = .error mismatch ∧
          (ws'.moduleDescriptor deserialize id).1 = .answered (.error mismatch)) ∧
      ∃ last, (opened.serveAll deserialize calls).image? id = some last ∧ last.deserializations = 0) := by
  have hcalm : ∀ (d : Unit) (request : DeserializeRequest),
      (PackageListing.deserialize request : Deserialization ModuleDescriptor ModuleDescriptor).NeverPanics :=
    fun _ request => (PackageListing.onlyFragments_deserialize request).neverPanics
  have hmodule := ContainerContent.moduleName_ofAdditions moduleName abiVersion additions
  have hversion := ContainerContent.abiVersion_ofAdditions moduleName abiVersion additions
  have hfragments := ContainerContent.fragments_ofAdditions moduleName abiVersion additions
  have htable := ContainerContent.tableOfContents_ofAdditions moduleName abiVersion additions
  generalize ContainerContent.ofAdditions moduleName abiVersion additions = c at *
  subst hmodule hversion
  have hrest := (Workspace.serveAll_continues (δ := ModuleDescriptor) hcalm earlier
    (Workspace.atRest_empty files)).1
  have hopened := (Workspace.openImage_continues hrest path config ()).1
  obtain ⟨hid, hfiles, himage⟩ := Workspace.openImage_of_library hfile config ()
  have hfaithful := Workspace.FaithfulAt.of_opened (fun _ => PackageListing.deserialize) himage
  rw [← hfiles] at hfile
  refine ⟨hid, fun hsame => ?_, fun hother => ⟨?_, ?_⟩⟩
  · obtain ⟨m, hname, hpackages, hanswers⟩ :=
      ContainerContent.module_of_mem_served hopened himage hfaithful hfile hcalls hsize htable hsame
    refine ⟨m, hname, fun name => ?_, hanswers⟩
    rw [hpackages, hfragments, Table.get?_ofList]
  · exact ContainerContent.mismatch_of_mem_served hopened himage hfaithful hfile hcalls hother
  · exact ContainerContent.deserializations_of_mismatch hopened himage hfaithful hfile hcalls hother

/-- A fragment that was added twice, and a session of another version. -/
theorem materialization_replaced :
    let additions : List (String × Bytes) := [("m.b", [1]), ("m.a", []), ("m.b", [2, 3])]
    let library := (ContainerContent.ofAdditions "m" .current additions).encode
    let files := (FileTree.ofFiles [(Utf8.encode "m.tlb", library)]).toFileSystem
    let deserialize : Unit → Deserialization.Deserializer ModuleDescriptor := fun _ => PackageListing.deserialize
    let image (config : SessionConfig) : Workspace Unit ModuleDescriptor :=
      (Workspace.openImage ⟨files, []⟩ (.ofText "/m.tlb") config ()).2
    library.length < 2 ^ 64 ∧
      (∃ m : ModuleDescriptor, ((image {}).moduleDescriptor deserialize ⟨0⟩).1 = .answered (.ok m) ∧
        m.package? "m.b" = some ⟨"m.b", [2, 3]⟩ ∧ m.package? "m.a" = some ⟨"m.a", []⟩ ∧ m.package? "m.c" = none) ∧
      ((image { abiVersion := ⟨9, 0, 0⟩ }).moduleName ⟨0⟩).1 =
        .error (.versionMismatch (.ofText "/m.tlb") ⟨9, 0, 0⟩ .current) := by
  intro additions library files deserialize image
  have hfile : files.library (.ofText "/m.tlb") = .ok library := by
    rfl
  have hsize : library.length < 2 ^ 64 := by
    decide +kernel
  have hresult := fun config : SessionConfig =>
    materialization "m" .current additions files [] [.moduleDescriptor ⟨0⟩] (.ofText "/m.tlb") config hfile hsize
      (by simp)
  obtain ⟨-, hsame, -⟩ := hresult {}
  obtain ⟨-, -, hother⟩ := hresult { abiVersion := ⟨9, 0, 0⟩ }
  obtain ⟨m, -, hpackages, hanswers⟩ := hsame rfl
  refine ⟨hsize, ⟨m, (hanswers _ _ List.mem_cons_self).2, ?_, ?_, ?_⟩, ?_⟩
  · exact (hpackages "m.b").trans rfl
  · exact (hpackages "m.a").trans rfl
  · exact (hpackages "m.c").trans rfl
  · exact ((hother (by decide)).1 _ _ List.mem_cons_self).1

end TernBackend
