import Mathlib.Data.Finset.Card
import Mathlib.Data.Set.Basic
import TernBackend.Image.Basic
import TernBackend.Proofs.Package.Deserialization

/-!
# How images go on

Whatever is asked of a workspace, its images only go on: a header or a descriptor that has been stored stays,
and an image whose descriptor is being computed is left to the caller who computes it (`LibraryImage.Onward`).
Along with this goes what the two cells and the two counts of an image say about each other
(`LibraryImage.Consistent`).

A call for a descriptor is answered whenever the deserializers do not panic
(`Workspace.descriptorWithin_describes`). The induction is on the depth that is left for materializations inside
one another: every one of them takes an image that was idle, and the depth is never below the number of these
(`Workspace.idle`).
-/

namespace TernBackend

namespace Cell

variable {α : Type} {c : Cell Unit α}

theorem verdict_of_stored {answer : Answer α} (h : c.stored = some answer) : c.verdict () = .done answer := by
  simp [verdict, h]

theorem verdict_of_idle (hstored : c.stored = none) (hrunner : c.runner = none) : c.verdict () = .compute := by
  simp [verdict, hstored, hrunner]

/-- With one caller, a cell that is being computed is computed by that caller. -/
theorem verdict_of_runner (hstored : c.stored = none) (hrunner : c.runner ≠ none) : c.verdict () = .reentry := by
  obtain ⟨u, hu⟩ := Option.ne_none_iff_exists'.1 hrunner
  simp [verdict, hstored, hu]

end Cell

/-! ## One image -/

namespace LibraryImage

variable {D δ : Type}

/-- The image after its header has been read. -/
def withHeader (answer : Answer MetadataHeader) (image : LibraryImage D δ) : LibraryImage D δ :=
  { image with
    header := (image.header.taken ()).land (.answered answer)
    headerReads := image.headerReads + 1 }

/-- The image when somebody has begun to compute its descriptor. -/
def taken (image : LibraryImage D δ) : LibraryImage D δ :=
  { image with descriptor := image.descriptor.taken () }

/-- The image when its deserializer has been called. -/
def counted (image : LibraryImage D δ) : LibraryImage D δ :=
  { image with deserializations := image.deserializations + 1 }

/-- The image when the computation of its descriptor has ended. -/
def landed (outcome : Outcome δ) (image : LibraryImage D δ) : LibraryImage D δ :=
  { image with descriptor := image.descriptor.land outcome }

/-- Nobody has computed the descriptor, and nobody is computing it. -/
def Idle (image : LibraryImage D δ) : Prop := image.descriptor.stored = none ∧ image.descriptor.runner = none

instance (image : LibraryImage D δ) : Decidable image.Idle :=
  decidable_of_iff (image.descriptor.stored.isNone ∧ image.descriptor.runner.isNone) (by simp [Idle])

/-- What the cells and the counts of an image say about each other. -/
structure Consistent (image : LibraryImage D δ) : Prop where
  header_runner : image.header.runner = none
  headerReads_eq : image.headerReads = image.header.stored.toList.length
  deserializations_le : image.deserializations ≤ 1
  /-- The deserializer is not called unless there is a header. -/
  header_ok : image.deserializations ≠ 0 → ∃ header, image.header.stored = some (.ok header)
  /-- An error of the header is the error of the descriptor. -/
  header_of_stored : ∀ answer, image.descriptor.stored = some answer →
    ∃ header, image.header.stored = some header ∧ ∀ e, header = .error e → answer = .error e
  deserializations_of_idle : image.Idle → image.deserializations = 0
  stored_of_runner : image.descriptor.runner ≠ none → image.descriptor.stored = none

/-- The image of a library that has just been opened. -/
def opened (path : Path) (config : SessionConfig) (deserializer : D) : LibraryImage D δ :=
  ⟨path, config, deserializer, {}, {}, 0, 0⟩

theorem consistent_opened (path : Path) (config : SessionConfig) (deserializer : D) :
    (opened path config deserializer : LibraryImage D δ).Consistent where
  header_runner := rfl
  headerReads_eq := rfl
  deserializations_le := Nat.zero_le 1
  header_ok h := absurd rfl h
  header_of_stored := by simp [opened]
  deserializations_of_idle _ := rfl
  stored_of_runner _ := rfl

/-- What an image may have become while others were asked: nothing it has answered is taken back, and a
descriptor that is being computed is left alone. -/
structure Onward (image image' : LibraryImage D δ) : Prop where
  path_eq : image'.path = image.path
  config_eq : image'.config = image.config
  deserializer_eq : image'.deserializer = image.deserializer
  header_stored : ∀ answer, image.header.stored = some answer → image'.header.stored = some answer
  descriptor_stored : ∀ answer, image.descriptor.stored = some answer → image'.descriptor.stored = some answer
  runner_eq : image'.descriptor.runner = image.descriptor.runner
  of_runner : image.descriptor.runner ≠ none →
    image'.descriptor.stored = image.descriptor.stored ∧ image'.deserializations = image.deserializations
  consistent : image.Consistent → image'.Consistent

variable {image image' image'' : LibraryImage D δ}

theorem Onward.refl (image : LibraryImage D δ) : image.Onward image :=
  ⟨rfl, rfl, rfl, fun _ => id, fun _ => id, rfl, fun _ => ⟨rfl, rfl⟩, id⟩

theorem Onward.trans (h : image.Onward image') (h' : image'.Onward image'') : image.Onward image'' where
  path_eq := h'.path_eq.trans h.path_eq
  config_eq := h'.config_eq.trans h.config_eq
  deserializer_eq := h'.deserializer_eq.trans h.deserializer_eq
  header_stored answer hstored := h'.header_stored answer (h.header_stored answer hstored)
  descriptor_stored answer hstored := h'.descriptor_stored answer (h.descriptor_stored answer hstored)
  runner_eq := h'.runner_eq.trans h.runner_eq
  of_runner hrunner := by
    obtain ⟨hstored, hcount⟩ := h.of_runner hrunner
    obtain ⟨hstored', hcount'⟩ := h'.of_runner (h.runner_eq ▸ hrunner)
    exact ⟨hstored'.trans hstored, hcount'.trans hcount⟩
  consistent hc := h'.consistent (h.consistent hc)

/-- An image that is idle after something was idle before. -/
theorem Onward.idle (h : image.Onward image') (hidle : image'.Idle) : image.Idle := by
  refine ⟨?_, h.runner_eq ▸ hidle.2⟩
  cases hstored : image.descriptor.stored with
  | none => rfl
  | some answer => exact absurd (h.descriptor_stored answer hstored) (by simp [hidle.1])

theorem onward_withHeader (hunread : image.header.stored = none) (answer : Answer MetadataHeader) :
    image.Onward (image.withHeader answer) where
  path_eq := rfl
  config_eq := rfl
  deserializer_eq := rfl
  header_stored a hstored := by simp [hunread] at hstored
  descriptor_stored _ := id
  runner_eq := rfl
  of_runner _ := ⟨rfl, rfl⟩
  consistent hc :=
    { header_runner := rfl
      headerReads_eq := by
        simp [withHeader, Cell.land, Cell.store, Cell.released, Cell.taken, hc.headerReads_eq, hunread]
      deserializations_le := hc.deserializations_le
      header_ok := fun hne => by
        obtain ⟨header, hstored⟩ := hc.header_ok hne
        simp [hunread] at hstored
      header_of_stored := fun a hstored => by
        obtain ⟨header, hheader, -⟩ := hc.header_of_stored a hstored
        simp [hunread] at hheader
      deserializations_of_idle := hc.deserializations_of_idle
      stored_of_runner := hc.stored_of_runner }

theorem withHeader_stored (hunread : image.header.stored = none) (answer : Answer MetadataHeader) :
    (image.withHeader answer).header.stored = some answer := by
  simp [withHeader, Cell.land, Cell.store, Cell.released, Cell.taken, hunread]

theorem Consistent.taken (hc : image.Consistent) (hidle : image.Idle) : image.taken.Consistent where
  header_runner := hc.header_runner
  headerReads_eq := hc.headerReads_eq
  deserializations_le := hc.deserializations_le
  header_ok := hc.header_ok
  header_of_stored := hc.header_of_stored
  deserializations_of_idle h := by simp [Idle, LibraryImage.taken, Cell.taken] at h
  stored_of_runner _ := hidle.1

theorem Consistent.counted (hc : image.Consistent) (hrunner : image.descriptor.runner ≠ none)
    (hcount : image.deserializations = 0) {header : MetadataHeader}
    (hheader : image.header.stored = some (.ok header)) : image.counted.Consistent where
  header_runner := hc.header_runner
  headerReads_eq := hc.headerReads_eq
  deserializations_le := by simp [LibraryImage.counted, hcount]
  header_ok _ := ⟨header, hheader⟩
  header_of_stored := hc.header_of_stored
  deserializations_of_idle h := absurd h.2 hrunner
  stored_of_runner := hc.stored_of_runner

theorem Consistent.landed (hc : image.Consistent) (hstored : image.descriptor.stored = none) {answer : Answer δ}
    {header : Answer MetadataHeader} (hheader : image.header.stored = some header)
    (herror : ∀ e, header = .error e → answer = .error e) : (image.landed (.answered answer)).Consistent where
  header_runner := hc.header_runner
  headerReads_eq := hc.headerReads_eq
  deserializations_le := hc.deserializations_le
  header_ok := hc.header_ok
  header_of_stored a ha := by
    obtain rfl : answer = a := by
      simpa [LibraryImage.landed, Cell.land, Cell.store, Cell.released, hstored] using ha
    exact ⟨header, hheader, herror⟩
  deserializations_of_idle h := by
    simp [Idle, LibraryImage.landed, Cell.land, Cell.store, Cell.released, hstored] at h
  stored_of_runner h := by simp [LibraryImage.landed, Cell.land, Cell.released] at h

theorem landed_stored (hstored : image.descriptor.stored = none) (answer : Answer δ) :
    (image.landed (.answered answer)).descriptor.stored = some answer := by
  simp [landed, Cell.land, Cell.store, Cell.released, hstored]

/-- What an image may have become at a point of its own materialization. -/
structure Underway (image image' : LibraryImage D δ) : Prop where
  path_eq : image'.path = image.path
  config_eq : image'.config = image.config
  deserializer_eq : image'.deserializer = image.deserializer
  header_stored : ∀ answer, image.header.stored = some answer → image'.header.stored = some answer
  stored_eq : image'.descriptor.stored = none
  runner_ne : image'.descriptor.runner ≠ none
  consistent : image.Consistent → image'.Consistent

theorem underway_taken (hidle : image.Idle) : image.Underway image.taken where
  path_eq := rfl
  config_eq := rfl
  deserializer_eq := rfl
  header_stored _ := id
  stored_eq := hidle.1
  runner_ne := by simp [taken, Cell.taken]
  consistent hc := hc.taken hidle

namespace Underway

theorem onward (h : image.Underway image') (h' : image'.Onward image'') : image.Underway image'' where
  path_eq := h'.path_eq.trans h.path_eq
  config_eq := h'.config_eq.trans h.config_eq
  deserializer_eq := h'.deserializer_eq.trans h.deserializer_eq
  header_stored answer hstored := h'.header_stored answer (h.header_stored answer hstored)
  stored_eq := (h'.of_runner h.runner_ne).1.trans h.stored_eq
  runner_ne := h'.runner_eq ▸ h.runner_ne
  consistent hc := h'.consistent (h.consistent hc)

/-- The deserializer is called once: the image was idle, so it has not been called before. -/
theorem counted (hidle : image.Idle) (h : image.taken.Onward image') {header : MetadataHeader}
    (hheader : image'.header.stored = some (.ok header)) : image.Underway image'.counted := by
  have hunderway := (underway_taken hidle).onward h
  refine ⟨hunderway.path_eq, hunderway.config_eq, hunderway.deserializer_eq, hunderway.header_stored,
    hunderway.stored_eq, hunderway.runner_ne, fun hc => ?_⟩
  have hcount : image'.deserializations = 0 :=
    (h.of_runner (underway_taken hidle).runner_ne).2.trans (hc.deserializations_of_idle hidle)
  exact (hunderway.consistent hc).counted hunderway.runner_ne hcount hheader

theorem landed (h : image.Underway image') (hidle : image.Idle) {header : Answer MetadataHeader}
    {answer : Answer δ} (hheader : image'.header.stored = some header)
    (herror : ∀ e, header = .error e → answer = .error e) :
    image.Onward (image'.landed (.answered answer)) where
  path_eq := h.path_eq
  config_eq := h.config_eq
  deserializer_eq := h.deserializer_eq
  header_stored := h.header_stored
  descriptor_stored a ha := by simp [hidle.1] at ha
  runner_eq := by simp [LibraryImage.landed, Cell.land, Cell.released, hidle.2]
  of_runner hrunner := absurd hidle.2 hrunner
  consistent hc := (h.consistent hc).landed h.stored_eq hheader herror

end Underway

end LibraryImage

/-! ## All the images of a workspace -/

namespace Workspace

variable {D δ : Type} {ws ws' ws'' : Workspace D δ} {s : Set ImageId} {id other : ImageId}
  {image : LibraryImage D δ}

theorem image?_update_self (himage : ws.image? id = some image) (change : LibraryImage D δ → LibraryImage D δ) :
    (ws.update id change).image? id = some (change image) := by
  have hplace : ws.images[id.place]? = some image := himage
  simp [image?, update, hplace]

theorem image?_update_of_ne (ws : Workspace D δ) (hne : other ≠ id)
    (change : LibraryImage D δ → LibraryImage D δ) : (ws.update id change).image? other = ws.image? other := by
  have hplace : id.place ≠ other.place := fun h => hne (congrArg ImageId.mk h).symm
  simp [image?, update, hplace]

/-- An image of a workspace in which one image has been changed. -/
theorem exists_of_image?_update {change : LibraryImage D δ → LibraryImage D δ} {image' : LibraryImage D δ}
    (himage' : (ws.update id change).image? other = some image') :
    (other = id ∧ ∃ image, ws.image? id = some image ∧ change image = image') ∨ ws.image? other = some image' := by
  by_cases hne : other = id
  · subst hne
    exact .inl ⟨rfl, by simpa [image?, update] using himage'⟩
  · exact .inr ((image?_update_of_ne ws hne change).symm.trans himage')

/-- The images of a set have gone on. -/
def EvolvesOn (s : Set ImageId) (ws ws' : Workspace D δ) : Prop :=
  ∀ id ∈ s, Option.Rel LibraryImage.Onward (ws.image? id) (ws'.image? id)

/-- All images have gone on, and none has come or gone. -/
def Evolves (ws ws' : Workspace D δ) : Prop := EvolvesOn Set.univ ws ws'

/-- The images whose descriptors nobody has asked for. -/
def idle (ws : Workspace D δ) : Finset Nat :=
  {place ∈ Finset.range ws.images.length | ∃ image ∈ ws.images[place]?, image.Idle}

/-- Every image is consistent. -/
def Sound (ws : Workspace D δ) : Prop := ∀ id image, ws.image? id = some image → image.Consistent

theorem EvolvesOn.refl (s : Set ImageId) (ws : Workspace D δ) : EvolvesOn s ws ws := by
  intro id _
  cases ws.image? id with
  | none => exact .none
  | some image => exact .some (.refl image)

theorem EvolvesOn.trans (h : EvolvesOn s ws ws') (h' : EvolvesOn s ws' ws'') : EvolvesOn s ws ws'' := by
  intro id hid
  have hrel := h id hid
  have hrel' := h' id hid
  revert hrel hrel'
  generalize ws.image? id = o, ws'.image? id = o', ws''.image? id = o''
  rintro (honward | _) (honward' | _)
  · exact .some (honward.trans honward')
  · exact .none

theorem EvolvesOn.mono {t : Set ImageId} (h : EvolvesOn s ws ws') (hsub : t ⊆ s) : EvolvesOn t ws ws' :=
  fun id hid => h id (hsub hid)

/-- A change to an image concerns no other image. -/
theorem EvolvesOn.update (h : EvolvesOn s ws ws') (hid : id ∉ s)
    (change : LibraryImage D δ → LibraryImage D δ) : EvolvesOn s ws (ws'.update id change) := by
  intro other hother
  rw [image?_update_of_ne ws' (ne_of_mem_of_not_mem hother hid)]
  exact h other hother

theorem EvolvesOn.image? (h : EvolvesOn s ws ws') (hid : id ∈ s) (himage : ws.image? id = some image) :
    ∃ image', ws'.image? id = some image' ∧ image.Onward image' := by
  have hrel := h id hid
  rw [himage] at hrel
  generalize ws'.image? id = o at hrel
  cases hrel with
  | some honward => exact ⟨_, rfl, honward⟩

theorem Evolves.image? (h : ws.Evolves ws') (himage : ws.image? id = some image) :
    ∃ image', ws'.image? id = some image' ∧ image.Onward image' :=
  EvolvesOn.image? h (Set.mem_univ id) himage

/-- What an image has come from. -/
theorem Evolves.image?_before (h : ws.Evolves ws') {image' : LibraryImage D δ}
    (himage : ws'.image? id = some image') : ∃ image, ws.image? id = some image ∧ image.Onward image' := by
  have hrel := h id (Set.mem_univ id)
  rw [himage] at hrel
  generalize ws.image? id = o at hrel
  cases hrel with
  | some honward => exact ⟨_, rfl, honward⟩

theorem Evolves.sound (h : ws.Evolves ws') (hsound : ws.Sound) : ws'.Sound := by
  intro id image' himage'
  obtain ⟨image, himage, honward⟩ := h.image?_before himage'
  exact honward.consistent (hsound id image himage)

/-- An image that evolves by itself, while all others evolve, makes the workspace evolve. -/
theorem EvolvesOn.evolves (h : EvolvesOn {id}ᶜ ws ws') {image' : LibraryImage D δ}
    (himage : ws.image? id = some image) (himage' : ws'.image? id = some image')
    (honward : image.Onward image') : ws.Evolves ws' := by
  intro other _
  by_cases hne : other = id
  · subst hne
    rw [himage, himage']
    exact .some honward
  · exact h other hne

theorem mem_idle {place : Nat} : place ∈ ws.idle ↔ ∃ image, ws.image? ⟨place⟩ = some image ∧ image.Idle := by
  simp only [idle, Workspace.image?, Finset.mem_filter, Finset.mem_range, Option.mem_def]
  refine ⟨And.right, fun h => ⟨?_, h⟩⟩
  obtain ⟨image, himage, -⟩ := h
  exact (List.getElem?_eq_some_iff.1 himage).1

theorem card_idle_le (ws : Workspace D δ) : ws.idle.card ≤ ws.images.length := by
  simpa [idle] using Finset.card_filter_le (Finset.range ws.images.length) _

theorem Evolves.card_idle_le (h : ws.Evolves ws') : ws'.idle.card ≤ ws.idle.card := by
  refine Finset.card_le_card fun place hplace => ?_
  obtain ⟨image', himage', hidle⟩ := mem_idle.1 hplace
  obtain ⟨image, himage, honward⟩ := h.image?_before himage'
  exact mem_idle.2 ⟨image, himage, honward.idle hidle⟩

theorem idle_update_subset {change : LibraryImage D δ → LibraryImage D δ}
    (hchange : ∀ image, ws.image? id = some image → (change image).Idle → image.Idle) :
    (ws.update id change).idle ⊆ ws.idle := by
  intro place hplace
  obtain ⟨image', himage', hidle⟩ := mem_idle.1 hplace
  rcases exists_of_image?_update himage' with ⟨rfl, image, himage, rfl⟩ | himage
  · exact mem_idle.2 ⟨image, himage, hchange image himage hidle⟩
  · exact mem_idle.2 ⟨image', himage, hidle⟩

/-- Taking an idle image leaves one idle image fewer. -/
theorem card_idle_taken_lt (himage : ws.image? id = some image) (hidle : image.Idle) :
    (ws.update id (·.taken)).idle.card < ws.idle.card := by
  have hsub : (ws.update id (·.taken)).idle ⊆ ws.idle :=
    idle_update_subset fun image' himage' _ => Option.some.inj (himage.symm.trans himage') ▸ hidle
  refine Finset.card_lt_card ((Finset.ssubset_iff_of_subset hsub).2
    ⟨id.place, mem_idle.2 ⟨image, himage, hidle⟩, fun hmem => ?_⟩)
  obtain ⟨image', himage', hidle'⟩ := mem_idle.1 hmem
  obtain rfl := Option.some.inj ((image?_update_self himage _).symm.trans himage')
  exact (LibraryImage.underway_taken hidle).runner_ne hidle'.2

theorem Sound.update (hsound : ws.Sound) {change : LibraryImage D δ → LibraryImage D δ}
    (hchange : ∀ image, ws.image? id = some image → (change image).Consistent) :
    (ws.update id change).Sound := by
  intro other image' himage'
  rcases exists_of_image?_update himage' with ⟨rfl, image, himage, rfl⟩ | himage
  · exact hchange image himage
  · exact hsound other image' himage

/-! ## Headers -/

theorem header_of_stored (himage : ws.image? id = some image) {answer : Answer MetadataHeader}
    (hstored : image.header.stored = some answer) : ws.header id = (answer, ws) := by
  simp [header, himage, Cell.verdict_of_stored hstored]

/-- A header that nobody has asked for is read from the file, as it is now. -/
theorem header_of_unread (himage : ws.image? id = some image) (hstored : image.header.stored = none)
    (hrunner : image.header.runner = none) :
    ws.header id =
      (ws.files.header image.path image.config.abiVersion,
        ws.update id (·.withHeader (ws.files.header image.path image.config.abiVersion))) := by
  simp only [header, himage, Cell.verdict_of_idle hstored hrunner]
  rfl

theorem header_evolves (ws : Workspace D δ) (id : ImageId) : ws.Evolves (ws.header id).2 := by
  cases himage : ws.image? id with
  | none =>
    simp only [header, himage]
    exact .refl _ ws
  | some image =>
    cases hstored : image.header.stored with
    | some answer =>
      rw [header_of_stored himage hstored]
      exact .refl _ ws
    | none =>
      cases hrunner : image.header.runner with
      | some u =>
        simp only [header, himage, Cell.verdict_of_runner hstored (by simp [hrunner])]
        exact .refl _ ws
      | none =>
        rw [header_of_unread himage hstored hrunner]
        have hothers : EvolvesOn {id}ᶜ ws ws := .refl _ ws
        exact (hothers.update (by simp) _).evolves himage (image?_update_self himage _)
          (LibraryImage.onward_withHeader hstored _)

/-- The answer to a call for a header is the header that is there afterwards. -/
theorem header_stored (himage : ws.image? id = some image) (hc : image.Consistent) :
    ∃ image', (ws.header id).2.image? id = some image' ∧ image'.header.stored = some (ws.header id).1 := by
  cases hstored : image.header.stored with
  | some answer =>
    rw [header_of_stored himage hstored]
    exact ⟨image, himage, hstored⟩
  | none =>
    rw [header_of_unread himage hstored hc.header_runner]
    exact ⟨_, image?_update_self himage _, LibraryImage.withHeader_stored hstored _⟩

/-- What has begun with the descriptor of an image makes no difference to its header. -/
theorem header_update_taken (himage : ws.image? id = some image) :
    ((ws.update id (·.taken)).header id).1 = (ws.header id).1 := by
  simp only [header, image?_update_self himage, himage]
  cases hverdict : image.header.verdict () <;>
    simp [LibraryImage.taken, LibraryImage.libraryName, update, hverdict]

theorem moduleName_evolves (ws : Workspace D δ) (id : ImageId) : ws.Evolves (ws.moduleName id).2 :=
  ws.header_evolves id

/-! ## Materializations -/

/-- The workspace when an image has been taken and its header has been read. -/
def reading (ws : Workspace D δ) (id : ImageId) : Workspace D δ := ((ws.update id (·.taken)).header id).2

/-- The workspace when also the deserializer of the image has been called. -/
def deserializing (ws : Workspace D δ) (id : ImageId) : Workspace D δ := (ws.reading id).update id (·.counted)

theorem reading_evolvesOn (hid : id ∉ s) : EvolvesOn s ws (ws.reading id) :=
  ((EvolvesOn.refl s ws).update hid _).trans ((header_evolves _ id).mono (Set.subset_univ s))

theorem deserializing_evolvesOn (hid : id ∉ s) : EvolvesOn s ws (ws.deserializing id) :=
  (reading_evolvesOn hid).update hid _

section

variable (hsound : ws.Sound) (himage : ws.image? id = some image) (hidle : image.Idle)
include hsound himage hidle

theorem taken_sound : (ws.update id (·.taken)).Sound :=
  hsound.update fun image' himage' =>
    (hsound id image' himage').taken (Option.some.inj (himage.symm.trans himage') ▸ hidle)

theorem reading_image? :
    ∃ read, (ws.reading id).image? id = some read ∧ image.taken.Onward read ∧
      read.header.stored = some (ws.header id).1 := by
  have htaken := image?_update_self himage (·.taken)
  obtain ⟨read, hread, hstored⟩ := header_stored htaken (taken_sound hsound himage hidle id _ htaken)
  obtain ⟨read', hread', honward⟩ := (header_evolves _ id).image? htaken
  obtain rfl : read = read' := Option.some.inj (hread.symm.trans hread')
  exact ⟨read, hread, honward, hstored.trans (congrArg some (header_update_taken himage))⟩

variable {header : MetadataHeader} (hheader : (ws.header id).1 = .ok header)
include hheader

theorem deserializing_image? :
    ∃ running, (ws.deserializing id).image? id = some running ∧ image.Underway running ∧
      running.header.stored = some (.ok header) := by
  obtain ⟨read, hread, honward, hstored⟩ := reading_image? hsound himage hidle
  rw [hheader] at hstored
  exact ⟨read.counted, image?_update_self hread _, .counted hidle honward hstored, hstored⟩

theorem deserializing_sound : (ws.deserializing id).Sound := by
  obtain ⟨read, hread, honward, hstored⟩ := reading_image? hsound himage hidle
  rw [hheader] at hstored
  have hreading : (ws.reading id).Sound := (header_evolves _ id).sound (taken_sound hsound himage hidle)
  refine hreading.update fun image' himage' => ?_
  obtain rfl : read = image' := Option.some.inj (hread.symm.trans himage')
  exact (LibraryImage.Underway.counted hidle honward hstored).consistent (hsound id image himage)

end

/-- Inside a materialization there is one idle image fewer. -/
theorem card_idle_deserializing_lt (himage : ws.image? id = some image) (hidle : image.Idle) :
    (ws.deserializing id).idle.card < ws.idle.card :=
  calc (ws.deserializing id).idle.card
    _ ≤ (ws.reading id).idle.card := Finset.card_le_card (idle_update_subset fun _ _ hidle' => hidle')
    _ ≤ (ws.update id (·.taken)).idle.card := (header_evolves _ id).card_idle_le
    _ < ws.idle.card := card_idle_taken_lt himage hidle

section

variable {deserialize : D → Deserialization.Deserializer δ}
  {nested : ImageId → Workspace D δ → Outcome δ × Workspace D δ}

theorem materialize_of_error (himage : ws.image? id = some image) {e : LibraryError}
    (h : (ws.header id).1 = .error e) :
    materialize deserialize nested id image (ws.update id (·.taken)) = (.answered (.error e), ws.reading id) := by
  rw [materialize, ← Prod.mk.eta (p := (ws.update id (·.taken)).header id), header_update_taken himage, h]
  rfl

theorem materialize_of_ok (himage : ws.image? id = some image) {header : MetadataHeader}
    (h : (ws.header id).1 = .ok header) :
    materialize deserialize nested id image (ws.update id (·.taken)) =
      run nested id (deserialize image.deserializer (image.request header)) (ws.deserializing id) := by
  rw [materialize, ← Prod.mk.eta (p := (ws.update id (·.taken)).header id), header_update_taken himage, h]
  rfl

end

/-! ## Calls for descriptors -/

section

variable (deserialize : D → Deserialization.Deserializer δ)

theorem descriptorWithin_of_idle (depth : Nat) (himage : ws.image? id = some image) (hidle : image.Idle) :
    descriptorWithin deserialize (depth + 1) id ws =
      let result :=
        materialize deserialize (descriptorWithin deserialize depth) id image (ws.update id (·.taken))
      (result.1, result.2.update id (·.landed result.1)) := by
  rw [descriptorWithin]
  simp only [himage, Cell.verdict_of_idle hidle.1 hidle.2]
  rfl

theorem moduleDescriptor_of_idle (himage : ws.image? id = some image) (hidle : image.Idle) :
    ∃ depth, ws.moduleDescriptor deserialize id =
      let result :=
        materialize deserialize (descriptorWithin deserialize depth) id image (ws.update id (·.taken))
      (result.1, result.2.update id (·.landed result.1)) := by
  obtain ⟨depth, hdepth⟩ := Nat.exists_eq_add_one.2
    (Nat.zero_lt_of_lt (List.getElem?_eq_some_iff.1 himage).1)
  exact ⟨depth, by rw [moduleDescriptor, hdepth, descriptorWithin_of_idle deserialize depth himage hidle]⟩

variable (depth : Nat)

theorem descriptorWithin_of_stored (himage : ws.image? id = some image) {answer : Answer δ}
    (hstored : image.descriptor.stored = some answer) :
    descriptorWithin deserialize depth id ws = (.answered answer, ws) := by
  unfold descriptorWithin
  simp [himage, Cell.verdict_of_stored hstored]

/-- A call for the descriptor of an image that is being materialized is a cycle. -/
theorem descriptorWithin_of_runner (himage : ws.image? id = some image)
    (hstored : image.descriptor.stored = none) (hrunner : image.descriptor.runner ≠ none) :
    descriptorWithin deserialize depth id ws = (.answered (.error (.cycle image.libraryName)), ws) := by
  unfold descriptorWithin
  simp [himage, Cell.verdict_of_runner hstored hrunner]

/-- A call that finds no idle image is answered at once. Unless the image is in flight, the answer is stored. -/
theorem descriptorWithin_of_not_idle (hidle : ∀ image, ws.image? id = some image → ¬ image.Idle) :
    ∃ answer, descriptorWithin deserialize depth id ws = (.answered answer, ws) ∧
      ∀ image, ws.image? id = some image → image.descriptor.runner = none →
        image.descriptor.stored = some answer := by
  cases himage : ws.image? id with
  | none =>
    refine ⟨.error unopened, ?_, by simp⟩
    unfold descriptorWithin
    simp [himage]
  | some image =>
    cases hstored : image.descriptor.stored with
    | some answer =>
      refine ⟨answer, descriptorWithin_of_stored deserialize depth himage hstored, fun image' himage' _ => ?_⟩
      exact Option.some.inj himage' ▸ hstored
    | none =>
      have hrunner : image.descriptor.runner ≠ none := fun hnone => hidle image himage ⟨hstored, hnone⟩
      have hresult := descriptorWithin_of_runner deserialize depth himage hstored hrunner
      exact ⟨_, hresult, fun image' himage' hnone => absurd (Option.some.inj himage' ▸ hnone) hrunner⟩

end

/-- A call for the descriptor of an image has been answered. If nobody was computing the descriptor, the answer
is there from now on, and so is the header that a call for it would have been answered with. -/
structure Described (ws : Workspace D δ) (id : ImageId) (result : Outcome δ × Workspace D δ) : Prop where
  evolves : ws.Evolves result.2
  answered : ∃ answer, result.1 = .answered answer ∧
    ∀ image, ws.image? id = some image → image.descriptor.runner = none →
      ∃ image', result.2.image? id = some image' ∧ image'.header.stored = some (ws.header id).1 ∧
        image'.descriptor.stored = some answer

/-- A call for a descriptor is answered as long as `depth` materializations suffice. -/
def Describes (nested : ImageId → Workspace D δ → Outcome δ × Workspace D δ) (depth : Nat) : Prop :=
  ∀ id ws, ws.Sound → ws.idle.card ≤ depth → Described ws id (nested id ws)

theorem run_evolves {α : Type} {nested : ImageId → Workspace D δ → Outcome δ × Workspace D δ} {depth : Nat}
    (hnested : Describes nested depth) (id : ImageId) {d : Deserialization δ α} (hcalm : d.NeverPanics) :
    ∀ {ws : Workspace D δ}, ws.Sound → ws.idle.card ≤ depth →
      ws.Evolves (run nested id d ws).2 ∧ ∃ answer, (run nested id d ws).1 = .answered answer := by
  induction d with
  | finish answer => exact fun {ws} _ _ => ⟨.refl _ ws, answer, rfl⟩
  | panic message => exact hcalm.elim
  | fragment name next ih => exact fun hsound hdepth => ih _ (hcalm _) hsound hdepth
  | progress other next ih => exact fun hsound hdepth => ih _ (hcalm _) hsound hdepth
  | moduleName other next ih =>
    intro ws hsound hdepth
    have hevolves := ws.moduleName_evolves other
    obtain ⟨hrest, hanswer⟩ := ih _ (hcalm (ws.moduleName other).1) (hevolves.sound hsound)
      (hevolves.card_idle_le.trans hdepth)
    exact ⟨hevolves.trans hrest, hanswer⟩
  | descriptor other next ih =>
    intro ws hsound hdepth
    obtain ⟨hevolves, answer, hanswer, -⟩ := hnested other ws hsound hdepth
    obtain ⟨hrest, hend⟩ := ih _ (hcalm answer) (hevolves.sound hsound) (hevolves.card_idle_le.trans hdepth)
    have hrun : run nested id (.descriptor other next) ws = run nested id (next answer) (nested other ws).2 := by
      rw [run, ← Prod.mk.eta (p := nested other ws), hanswer]
    rw [hrun]
    exact ⟨hevolves.trans hrest, hend⟩

/-- The end of a materialization, which has got as far as `image'`. -/
theorem described_landed (himage : ws.image? id = some image) (hidle : image.Idle)
    (hothers : EvolvesOn {id}ᶜ ws ws') {image' : LibraryImage D δ} (himage' : ws'.image? id = some image')
    (hunderway : image.Underway image') (hheader : image'.header.stored = some (ws.header id).1)
    {answer : Answer δ} (herror : ∀ e, (ws.header id).1 = .error e → answer = .error e) :
    Described ws id (.answered answer, ws'.update id (·.landed (.answered answer))) := by
  have hlanded := image?_update_self himage' (·.landed (.answered answer))
  have honward := hunderway.landed hidle hheader herror
  refine ⟨(hothers.update (by simp) _).evolves himage hlanded honward, answer, rfl, fun _ _ _ => ?_⟩
  exact ⟨_, hlanded, hheader, LibraryImage.landed_stored hunderway.stored_eq answer⟩

section

variable {deserialize : D → Deserialization.Deserializer δ}

/-- An idle image is taken, materialized and landed. -/
theorem materialize_described {nested : ImageId → Workspace D δ → Outcome δ × Workspace D δ} {depth : Nat}
    (hcalm : ∀ d request, (deserialize d request).NeverPanics) (hnested : Describes nested depth)
    (hsound : ws.Sound) (hdepth : ws.idle.card ≤ depth + 1) (himage : ws.image? id = some image)
    (hidle : image.Idle) :
    let result := materialize deserialize nested id image (ws.update id (·.taken))
    Described ws id (result.1, result.2.update id (·.landed result.1)) := by
  cases hanswer : (ws.header id).1 with
  | error e =>
    obtain ⟨read, hread, honward, hstored⟩ := reading_image? hsound himage hidle
    simp only [materialize_of_error himage hanswer]
    exact described_landed himage hidle (reading_evolvesOn (by simp)) hread
      ((LibraryImage.underway_taken hidle).onward honward) hstored (by simp [hanswer])
  | ok header =>
    obtain ⟨running, hrunning, hunderway, hstored⟩ := deserializing_image? hsound himage hidle hanswer
    have hcard := card_idle_deserializing_lt himage hidle
    obtain ⟨hrun, answer, hend⟩ := run_evolves hnested id (hcalm image.deserializer (image.request header))
      (deserializing_sound hsound himage hidle hanswer) (by omega)
    obtain ⟨ended, hended, honward⟩ := hrun.image? hrunning
    simp only [materialize_of_ok himage hanswer, hend]
    exact described_landed himage hidle
      ((deserializing_evolvesOn (by simp)).trans (hrun.mono (Set.subset_univ _))) hended
      (hunderway.onward honward) (hanswer ▸ honward.header_stored _ hstored) (by simp [hanswer])

theorem described_of_not_idle (depth : Nat) (hsound : ws.Sound)
    (hidle : ∀ image, ws.image? id = some image → ¬ image.Idle) :
    Described ws id (descriptorWithin deserialize depth id ws) := by
  obtain ⟨answer, hresult, hanswer⟩ := descriptorWithin_of_not_idle deserialize depth hidle
  rw [hresult]
  refine ⟨.refl _ ws, answer, rfl, fun image himage hrunner => ?_⟩
  have hstored := hanswer image himage hrunner
  obtain ⟨header, hheader, -⟩ := (hsound id image himage).header_of_stored answer hstored
  rw [header_of_stored himage hheader]
  exact ⟨image, himage, hheader, hstored⟩

/-- Every call for a descriptor is answered. -/
theorem descriptorWithin_describes (hcalm : ∀ d request, (deserialize d request).NeverPanics) (depth : Nat) :
    Describes (descriptorWithin deserialize depth) depth := by
  induction depth with
  | zero =>
    intro id ws hsound hdepth
    refine described_of_not_idle 0 hsound fun image himage hidle => ?_
    have hmem : id.place ∈ ws.idle := mem_idle.2 ⟨image, himage, hidle⟩
    exact absurd (Finset.card_pos.2 ⟨_, hmem⟩) (by omega)
  | succ depth ih =>
    intro id ws hsound hdepth
    by_cases hidle : ∃ image, ws.image? id = some image ∧ image.Idle
    · obtain ⟨image, himage, hidle⟩ := hidle
      rw [descriptorWithin_of_idle deserialize depth himage hidle]
      exact materialize_described hcalm ih hsound hdepth himage hidle
    · exact described_of_not_idle _ hsound fun image himage h => hidle ⟨image, himage, h⟩

/-- The depth that a call starts with always suffices. -/
theorem moduleDescriptor_described (hcalm : ∀ d request, (deserialize d request).NeverPanics)
    (hsound : ws.Sound) (id : ImageId) : Described ws id (ws.moduleDescriptor deserialize id) :=
  descriptorWithin_describes hcalm _ id ws hsound ws.card_idle_le

end

end Workspace

end TernBackend
