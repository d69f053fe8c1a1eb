import TernBackend.Proofs.Except
import TernBackend.Proofs.Image.Constancy

/-!
# Images that are true to their files

When the deserializers ask for fragments only, a call for a descriptor changes nothing but the image it is made
on (`Workspace.moduleDescriptor_sameBut`), and what the image has stored is what its library tells
(`LibraryImage.Faithful`). This lasts as long as the library does, whatever is asked of the image and of others,
so every call on the image is answered from its library (`Workspace.answers_of_mem_served`).
-/

namespace TernBackend

/-- What a library gives a deserializer that asks for fragments only. -/
def FileSystem.descriptor {δ : Type} (fs : FileSystem) (deserialize : Deserialization.Deserializer δ)
    (path : Path) (config : SessionConfig) : Outcome δ :=
  match fs.header path config.abiVersion with
  | .error e => .answered (.error e)
  | .ok header =>
    (Deserialization.runOn (fs.fragment path)
      (deserialize ⟨path, header.moduleName, header.tableOfContents, config⟩)).1

section

variable {fs fs' : FileSystem} {path : Path} {content : Bytes}

theorem FileSystem.isFile_of_library (h : fs.library path = .ok content) : fs.isFile path = true := by
  obtain ⟨entry, hentry, hread⟩ := bind_eq_ok_iff.1 (mapError_eq_ok_iff.1 h)
  cases entry with
  | file held => rw [isFile, hentry]
  | other fault => cases hread

/-- What a library tells about itself does not depend on the other files. -/
theorem FileSystem.header_congr (h : fs.library path = fs'.library path)
    (version : AbiVersion) : fs.header path version = fs'.header path version := by
  rw [header, h, header]

theorem FileSystem.descriptor_congr {δ : Type} (h : fs.library path = fs'.library path)
    (deserialize : Deserialization.Deserializer δ) (config : SessionConfig) :
    fs.descriptor deserialize path config = fs'.descriptor deserialize path config := by
  have hfragment : fs.fragment path = fs'.fragment path := by
    funext name
    rw [fragment, h, fragment]
  rw [descriptor, header_congr h, hfragment, descriptor]

end

/-- What an image has stored is what the files tell. -/
structure LibraryImage.Faithful {D δ : Type} (deserialize : D → Deserialization.Deserializer δ)
    (files : FileSystem) (image : LibraryImage D δ) : Prop where
  header : ∀ answer, image.header.stored = some answer →
    answer = files.header image.path image.config.abiVersion
  descriptor : ∀ answer, image.descriptor.stored = some answer →
    .answered answer = files.descriptor (deserialize image.deserializer) image.path image.config

theorem LibraryImage.faithful_opened {D δ : Type} (deserialize : D → Deserialization.Deserializer δ)
    (files : FileSystem) (path : Path) (config : SessionConfig) (deserializer : D) :
    (opened path config deserializer).Faithful deserialize files where
  header := by simp [opened]
  descriptor := by simp [opened]

namespace Workspace

variable {D δ : Type} {ws ws' ws'' : Workspace D δ} {id other : ImageId} {image : LibraryImage D δ}
  {deserialize : D → Deserialization.Deserializer δ}

/-! ## Nothing but one image -/

/-- Nothing but one image has changed. -/
structure SameBut (id : ImageId) (ws ws' : Workspace D δ) : Prop where
  files_eq : ws'.files = ws.files
  image?_eq : ∀ other, other ≠ id → ws'.image? other = ws.image? other

theorem SameBut.refl (id : ImageId) (ws : Workspace D δ) : SameBut id ws ws := ⟨rfl, fun _ _ => rfl⟩

theorem SameBut.trans (h : SameBut id ws ws') (h' : SameBut id ws' ws'') : SameBut id ws ws'' :=
  ⟨h'.files_eq.trans h.files_eq, fun other hne => (h'.image?_eq other hne).trans (h.image?_eq other hne)⟩

theorem sameBut_update (ws : Workspace D δ) (id : ImageId) (change : LibraryImage D δ → LibraryImage D δ) :
    SameBut id ws (ws.update id change) :=
  ⟨rfl, fun _ hne => image?_update_of_ne ws hne change⟩

theorem header_sameBut (ws : Workspace D δ) (id : ImageId) : SameBut id ws (ws.header id).2 := by
  unfold header
  split
  · exact .refl id ws
  · split
    · exact .refl id ws
    · exact .refl id ws
    · exact .refl id ws
    · exact sameBut_update ws id _

/-- A deserialization that asks for fragments only changes nothing. -/
theorem run_of_onlyFragments {α : Type} {nested : ImageId → Workspace D δ → Outcome δ × Workspace D δ}
    {d : Deserialization δ α} (h : d.OnlyFragments) (id : ImageId) (ws : Workspace D δ) :
    run nested id d ws = ((Deserialization.runOn (ws.fragment id) d).1, ws) := by
  induction d with
  | finish answer => rfl
  | fragment name next ih => exact ih _ (h _)
  | _ => exact h.elim

theorem fragment_of_image? (himage : ws.image? id = some image) :
    ws.fragment id = ws.files.fragment image.path := by
  funext name
  simp [fragment, himage]

theorem reading_sameBut (ws : Workspace D δ) (id : ImageId) : SameBut id ws (ws.reading id) :=
  (sameBut_update ws id _).trans (header_sameBut _ id)

theorem deserializing_sameBut (ws : Workspace D δ) (id : ImageId) : SameBut id ws (ws.deserializing id) :=
  (reading_sameBut ws id).trans (sameBut_update _ id _)

theorem moduleDescriptor_sameBut (honly : ∀ d request, (deserialize d request).OnlyFragments)
    (ws : Workspace D δ) (id : ImageId) : SameBut id ws (ws.moduleDescriptor deserialize id).2 := by
  by_cases hidle : ∃ image, ws.image? id = some image ∧ image.Idle
  · obtain ⟨image, himage, hidle⟩ := hidle
    obtain ⟨depth, hresult⟩ := moduleDescriptor_of_idle deserialize himage hidle
    rw [hresult]
    refine SameBut.trans ?_ (sameBut_update _ id _)
    cases hheader : (ws.header id).1 with
    | error e =>
      rw [materialize_of_error himage hheader]
      exact reading_sameBut ws id
    | ok header =>
      rw [materialize_of_ok himage hheader, run_of_onlyFragments (honly _ _)]
      exact deserializing_sameBut ws id
  · obtain ⟨answer, hresult, -⟩ := descriptorWithin_of_not_idle deserialize ws.images.length
      fun image himage h => hidle ⟨image, himage, h⟩
    rw [moduleDescriptor, hresult]
    exact .refl id ws

/-! ## Answers from the file -/

theorem header_of_faithful (himage : ws.image? id = some image) (hc : image.Consistent)
    (hfaithful : image.Faithful deserialize ws.files) :
    (ws.header id).1 = ws.files.header image.path image.config.abiVersion := by
  cases hstored : image.header.stored with
  | some answer =>
    rw [header_of_stored himage hstored]
    exact hfaithful.header answer hstored
  | none => rw [header_of_unread himage hstored hc.header_runner]

theorem moduleDescriptor_of_faithful (honly : ∀ d request, (deserialize d request).OnlyFragments)
    (hrest : ws.AtRest) (himage : ws.image? id = some image) (hfaithful : image.Faithful deserialize ws.files) :
    (ws.moduleDescriptor deserialize id).1 =
      ws.files.descriptor (deserialize image.deserializer) image.path image.config := by
  obtain ⟨hc, hrunner⟩ := hrest id image himage
  cases hstored : image.descriptor.stored with
  | some answer =>
    rw [moduleDescriptor, descriptorWithin_of_stored deserialize _ himage hstored]
    exact hfaithful.descriptor answer hstored
  | none =>
    have hidle : image.Idle := ⟨hstored, hrunner⟩
    have hheader := header_of_faithful himage hc hfaithful
    obtain ⟨depth, hresult⟩ := moduleDescriptor_of_idle deserialize himage hidle
    rw [hresult, FileSystem.descriptor, ← hheader]
    cases hanswer : (ws.header id).1 with
    | error e => rw [materialize_of_error himage hanswer]
    | ok header =>
      obtain ⟨running, hrunning, hunderway, -⟩ := deserializing_image? hrest.sound himage hidle hanswer
      -- the deserializer asks the image in flight, which has the same path over the same files
      have hfragment : (ws.deserializing id).fragment id = ws.files.fragment image.path := by
        rw [fragment_of_image? hrunning, (deserializing_sameBut ws id).files_eq, hunderway.path_eq]
      rw [materialize_of_ok himage hanswer, run_of_onlyFragments (honly _ _), hfragment]
      rfl

/-- The image of an identifier has stored what the files tell. -/
def FaithfulAt (deserialize : D → Deserialization.Deserializer δ) (id : ImageId) (ws : Workspace D δ) : Prop :=
  ∀ image, ws.image? id = some image → image.Faithful deserialize ws.files

theorem FaithfulAt.of_opened (deserialize : D → Deserialization.Deserializer δ) {path : Path}
    {config : SessionConfig} {deserializer : D}
    (himage : ws.image? id = some (.opened path config deserializer)) : FaithfulAt deserialize id ws := by
  intro image himage'
  obtain rfl := Option.some.inj (himage.symm.trans himage')
  exact LibraryImage.faithful_opened deserialize _ path config deserializer

theorem FaithfulAt.sameBut (h : FaithfulAt deserialize id ws) (hsame : SameBut other ws ws') (hne : id ≠ other) :
    FaithfulAt deserialize id ws' := by
  intro image himage
  rw [hsame.image?_eq id hne] at himage
  rw [hsame.files_eq]
  exact h image himage

theorem FaithfulAt.header (hrest : ws.AtRest) (h : FaithfulAt deserialize id ws) :
    FaithfulAt deserialize id (ws.header id).2 := by
  cases himage : ws.image? id with
  | none => simpa [Workspace.header, himage] using h
  | some image =>
    cases hstored : image.header.stored with
    | some answer => rwa [header_of_stored himage hstored]
    | none =>
      rw [header_of_unread himage hstored (hrest id image himage).1.header_runner]
      intro image' himage'
      obtain rfl := Option.some.inj ((image?_update_self himage _).symm.trans himage')
      refine ⟨fun answer hanswer => ?_, (h image himage).descriptor⟩
      exact Option.some.inj (hanswer.symm.trans (LibraryImage.withHeader_stored hstored _))

theorem FaithfulAt.moduleDescriptor (honly : ∀ d request, (deserialize d request).OnlyFragments)
    (hrest : ws.AtRest) (h : FaithfulAt deserialize id ws) :
    FaithfulAt deserialize id (ws.moduleDescriptor deserialize id).2 := by
  intro image' himage'
  have hdescribed := moduleDescriptor_described (fun d request => (honly d request).neverPanics) hrest.sound id
  obtain ⟨image, himage, honward⟩ := hdescribed.evolves.image?_before himage'
  obtain ⟨hc, hrunner⟩ := hrest id image himage
  obtain ⟨answer, hanswer, hstored⟩ := hdescribed.answered
  obtain ⟨image'', himage'', hheader, hdescriptor⟩ := hstored image himage hrunner
  obtain rfl : image' = image'' := Option.some.inj (himage'.symm.trans himage'')
  rw [(moduleDescriptor_sameBut honly ws id).files_eq]
  refine ⟨fun a ha => ?_, fun a ha => ?_⟩
  · rw [honward.path_eq, honward.config_eq, ← header_of_faithful himage hc (h image himage)]
    exact Option.some.inj (ha.symm.trans hheader)
  · rw [honward.path_eq, honward.config_eq, honward.deserializer_eq,
      ← moduleDescriptor_of_faithful honly hrest himage (h image himage), hanswer]
    exact congrArg _ (Option.some.inj (ha.symm.trans hdescriptor))

/-- A change to the files that leaves the library of the image alone. -/
theorem FaithfulAt.withFiles {files : FileSystem} (h : FaithfulAt deserialize id ws)
    (hlibrary : ∀ image, ws.image? id = some image → files.library image.path = ws.files.library image.path) :
    FaithfulAt deserialize id { ws with files } := by
  intro image himage
  obtain ⟨hheader, hdescriptor⟩ := h image himage
  have hlibrary := hlibrary image himage
  refine ⟨fun answer hanswer => ?_, fun answer hanswer => ?_⟩
  · rw [FileSystem.header_congr hlibrary]
    exact hheader answer hanswer
  · rw [FileSystem.descriptor_congr hlibrary]
    exact hdescriptor answer hanswer

theorem FaithfulAt.openImage (h : FaithfulAt deserialize id ws) (path : Path) (config : SessionConfig)
    (deserializer : D) : FaithfulAt deserialize id (ws.openImage path config deserializer).2 := by
  unfold Workspace.openImage
  split
  · exact h
  · intro image himage
    simp only [image?, List.getElem?_append] at himage
    split at himage
    · exact h image himage
    · obtain rfl := by simpa using List.mem_of_getElem? himage
      exact LibraryImage.faithful_opened deserialize _ path config deserializer

/-- A library that is there can be opened, and its image has stored nothing. -/
theorem openImage_of_library {path : Path} {content : Bytes} (h : ws.files.library path = .ok content)
    (config : SessionConfig) (deserializer : D) :
    (ws.openImage path config deserializer).1 = .ok ⟨ws.images.length⟩ ∧
      (ws.openImage path config deserializer).2.files = ws.files ∧
      (ws.openImage path config deserializer).2.image? ⟨ws.images.length⟩ =
        some (.opened path config deserializer) := by
  have hcheck : ws.files.checkLibrary path = .ok () := by
    rw [FileSystem.checkLibrary, if_pos (FileSystem.isFile_of_library h)]
  simp [Workspace.openImage, hcheck, image?, LibraryImage.opened]

theorem serve_faithful (honly : ∀ d request, (deserialize d request).OnlyFragments) (hrest : ws.AtRest)
    (himage : ws.image? id = some image) (h : FaithfulAt deserialize id ws) {call : WorkspaceCall D}
    (hcall : ∀ fs, call = .files fs → fs.library image.path = ws.files.library image.path) :
    (ws.serve deserialize call).files.library image.path = ws.files.library image.path ∧
      FaithfulAt deserialize id (ws.serve deserialize call) := by
  cases call with
  | files fs =>
    refine ⟨hcall fs rfl, h.withFiles fun image' himage' => ?_⟩
    obtain rfl : image = image' := Option.some.inj (himage.symm.trans himage')
    exact hcall fs rfl
  | progress other => exact ⟨rfl, h⟩
  | openImage path config deserializer =>
    refine ⟨?_, h.openImage path config deserializer⟩
    simp only [serve, Workspace.openImage]
    split <;> rfl
  | moduleName other =>
    have hsame := header_sameBut ws other
    refine ⟨congrArg (FileSystem.library · image.path) hsame.files_eq, ?_⟩
    -- only the image that is asked changes
    by_cases hne : id = other
    · subst hne
      exact h.header hrest
    · exact h.sameBut hsame hne
  | moduleDescriptor other =>
    have hsame := moduleDescriptor_sameBut honly ws other
    refine ⟨congrArg (FileSystem.library · image.path) hsame.files_eq, ?_⟩
    by_cases hne : id = other
    · subst hne
      exact h.moduleDescriptor honly hrest
    · exact h.sameBut hsame hne

/-- A run that leaves the library of an image alone leaves the image true to it. -/
theorem serveAll_faithful (honly : ∀ d request, (deserialize d request).OnlyFragments)
    (calls : List (WorkspaceCall D)) :
    ∀ {ws : Workspace D δ} {image : LibraryImage D δ}, ws.AtRest → ws.image? id = some image →
      FaithfulAt deserialize id ws →
      (∀ fs, .files fs ∈ calls → fs.library image.path = ws.files.library image.path) →
      (ws.serveAll deserialize calls).files.library image.path = ws.files.library image.path ∧
        FaithfulAt deserialize id (ws.serveAll deserialize calls) := by
  induction calls with
  | nil => exact fun _ _ hfaithful _ => ⟨rfl, hfaithful⟩
  | cons call calls ih =>
    intro ws image hrest himage hfaithful hcalls
    obtain ⟨hrest', hcontinues⟩ := serve_continues (fun d request => (honly d request).neverPanics) hrest call
    obtain ⟨image', himage', honward⟩ := hcontinues id image himage
    obtain ⟨hlibrary, hfaithful'⟩ := serve_faithful honly hrest himage hfaithful
      fun fs hfs => hcalls fs (hfs ▸ List.mem_cons_self)
    have hend := ih hrest' himage' hfaithful' fun fs hfs => by
      rw [honward.path_eq, hlibrary]
      exact hcalls fs (List.mem_cons_of_mem _ hfs)
    rwa [honward.path_eq, hlibrary] at hend

/-- In a run that leaves the library of an image alone, every call on the image is answered from the library. -/
theorem answers_of_mem_served (honly : ∀ d request, (deserialize d request).OnlyFragments)
    {start : Workspace D δ} (hrest : start.AtRest) (himage : start.image? id = some image)
    (hfaithful : FaithfulAt deserialize id start) {calls : List (WorkspaceCall D)}
    (hcalls : ∀ fs, .files fs ∈ calls → fs.library image.path = start.files.library image.path)
    {call : WorkspaceCall D} (hmem : (ws, call) ∈ start.served deserialize calls) :
    (ws.moduleName id).1 = (start.files.header image.path image.config.abiVersion).map (·.moduleName) ∧
      (ws.moduleDescriptor deserialize id).1 =
        start.files.descriptor (deserialize image.deserializer) image.path image.config := by
  obtain ⟨before, after, rfl, rfl⟩ := exists_of_mem_served hmem
  obtain ⟨hrest', hcontinues⟩ := serveAll_continues (fun d request => (honly d request).neverPanics) before hrest
  obtain ⟨image', himage', honward⟩ := hcontinues id image himage
  obtain ⟨hlibrary, hfaithful'⟩ := serveAll_faithful honly before hrest himage hfaithful
    fun fs hfs => hcalls fs (List.mem_append_left _ hfs)
  obtain ⟨hc, hrunner⟩ := hrest' id image' himage'
  have hheader := header_of_faithful himage' hc (hfaithful' image' himage')
  have hdescriptor := moduleDescriptor_of_faithful honly hrest' himage' (hfaithful' image' himage')
  rw [honward.path_eq, honward.config_eq, FileSystem.header_congr hlibrary] at hheader
  rw [honward.path_eq, honward.config_eq, honward.deserializer_eq, FileSystem.descriptor_congr hlibrary]
    at hdescriptor
  exact ⟨congrArg (Except.map MetadataHeader.moduleName) hheader, hdescriptor⟩

end Workspace

end TernBackend
