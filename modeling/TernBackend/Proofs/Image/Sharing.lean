import Mathlib.Data.Finset.Card
import Mathlib.Data.String.Basic
import TernBackend.Files.FileTree
import TernBackend.Image.Sharing
import TernBackend.Proofs.Wire.Utf8

/-!
# One image for each library

Two threads that open one library at the same time may both look in vain. Whoever comes second to add the
image looks again and finds it, so no canonical path is ever opened twice, and no image is under two of
them: the registry holds exactly what the opens so far have been answered (`Sound`). Every step keeps that
(`Sound.move`), so it is the case in every run (`Runs.sound`), whatever becomes of the headers and the
descriptors of the images in between.

What `get?`, `size` and `libraries` say follows from it (`one_image_per_library`). The name of an image is
what is shown of its path. Paths that are texts are told apart by what is shown of them, but others may not
be, and then the order by names leaves open which image comes first (`one_image_per_library_equal_names`).
-/

namespace TernBackend

/-! ## Images and registries -/

namespace Workspace

variable {D δ : Type}

/-- The workspace with one image more. -/
def append (ws : Workspace D δ) (image : LibraryImage D δ) : Workspace D δ :=
  { ws with images := ws.images ++ [image] }

theorem image?_append_self (ws : Workspace D δ) (image : LibraryImage D δ) :
    (ws.append image).image? ⟨ws.images.length⟩ = some image := by
  simp [image?, append]

/-- The images of a workspace are still there, over the same files and under the paths they were opened
with. What has been asked of them may differ, and others may have been opened. -/
structure Keeps (ws ws' : Workspace D δ) : Prop where
  files_eq : ws'.files = ws.files
  path : ∀ id image, ws.image? id = some image → ∃ image', ws'.image? id = some image' ∧ image'.path = image.path

theorem keeps_append (ws : Workspace D δ) (image : LibraryImage D δ) : ws.Keeps (ws.append image) where
  files_eq := rfl
  path id old hold := by
    have hlt : id.place < ws.images.length := (List.getElem?_eq_some_iff.1 hold).1
    exact ⟨old, (List.getElem?_append_left hlt).trans hold, rfl⟩

theorem sortByName_perm (ws : Workspace D δ) (ids : List ImageId) : (ws.sortByName ids).Perm ids :=
  List.mergeSort_perm ids _

theorem pairwise_sortByName (ws : Workspace D δ) (ids : List ImageId) :
    (ws.sortByName ids).Pairwise fun a b => ws.libraryName a ≤ ws.libraryName b := by
  have hsorted : (ws.sortByName ids).Pairwise fun a b => decide (ws.libraryName a ≤ ws.libraryName b) := by
    refine List.pairwise_mergeSort (fun a b c hab hbc => ?_) (fun a b => ?_) ids
    · simp only [decide_eq_true_eq] at hab hbc ⊢
      exact le_trans hab hbc
    · simp only [Bool.or_eq_true, decide_eq_true_eq]
      exact le_total _ _
  exact hsorted.imp of_decide_eq_true

end Workspace

/-- A text is shown as it is. -/
theorem Path.text_ofText (s : String) : (Path.ofText s).text = s := Utf8.lossy_encode s

namespace Registry

variable {D δ : Type} {r : Registry D} {ws : Workspace D δ} {key : Path} {form form' : List Path.Component}
  {id : ImageId}

theorem find?_insert : (r.insert form id).find? form' = if form' = form then some id else r.find? form' := by
  rw [find?, insert, List.lookup_cons]
  by_cases h : form' = form
  · simp [h]
  · simp [h, find?, beq_false_of_ne h]

/-- What is found is there. -/
theorem mem_of_find? (h : r.find? form = some id) : (form, id) ∈ r.images := by
  obtain ⟨before, after, hsplit, -⟩ := List.lookup_eq_some_iff.1 h
  simp [hsplit]

/-- What is there is found, if nothing is there twice. -/
theorem find?_of_mem (hnodup : (r.images.map (·.1)).Nodup) (h : (form, id) ∈ r.images) : r.find? form = some id := by
  obtain ⟨before, after, hsplit⟩ := List.append_of_mem h
  rw [hsplit, List.map_append, List.map_cons] at hnodup
  refine List.lookup_eq_some_iff.2 ⟨before, after, hsplit, fun entry hentry => ?_⟩
  rw [bne_iff_ne]
  rintro rfl
  exact (List.nodup_append.1 hnodup).2.2 entry.1 (List.mem_map_of_mem hentry) entry.1 List.mem_cons_self rfl

theorem findOrOpen_of_some (h : r.find? key.components = some id) : r.findOrOpen ws key = (.ok id, r, ws) := by
  rw [findOrOpen, h]

theorem findOrOpen_of_error (h : r.find? key.components = none) {e : LibraryError}
    (he : ws.files.checkLibrary key = .error e) : r.findOrOpen ws key = (.error e, r, ws) := by
  rw [findOrOpen, h]
  simp only [Workspace.openImage, he]

/-- The registry with one image more, that of a library which is opened under its canonical path. -/
theorem findOrOpen_of_ok (h : r.find? key.components = none) (hok : ws.files.checkLibrary key = .ok ()) :
    r.findOrOpen ws key = (.ok ⟨ws.images.length⟩, r.insert key.components ⟨ws.images.length⟩,
      ws.append ⟨key, r.config, r.deserializer, {}, {}, 0, 0⟩) := by
  rw [findOrOpen, h]
  simp only [Workspace.openImage, hok]
  rfl

end Registry

namespace Sharing

variable {τ D δ : Type} [DecidableEq τ] {s s' : Sharing τ D δ} {t : τ} {e : Option (Opened τ)}

/-! ## Moves and runs -/

/-- What a step of a thread can do, with what must be the case, what becomes of the state and what is
answered. -/
inductive Move (s : Sharing τ D δ) (t : τ) : Sharing τ D δ → Option (Opened τ) → Prop
  | lost {path fault} (hpath : s.workspace.files.canonical path = .error fault) :
      Move s t s (some ⟨t, path, .error (.ofFault path fault)⟩)
  | hit {path key id} (hpath : s.workspace.files.canonical path = .ok key)
      (hfind : s.registry.find? key.components = some id) : Move s t s (some ⟨t, path, .ok id⟩)
  | miss {path key} (hpath : s.workspace.files.canonical path = .ok key)
      (hfind : s.registry.find? key.components = none) : Move s t (s.withMissed t (some (path, key))) none
  | hitLate {path key id} (hmissed : s.missed t = some (path, key))
      (hfind : s.registry.find? key.components = some id) : Move s t (s.withMissed t none) (some ⟨t, path, .ok id⟩)
  | refuse {path key e} (hmissed : s.missed t = some (path, key)) (hfind : s.registry.find? key.components = none)
      (he : s.workspace.files.checkLibrary key = .error e) :
      Move s t (s.withMissed t none) (some ⟨t, path, .error e⟩)
  | insert {path key} (hmissed : s.missed t = some (path, key)) (hfind : s.registry.find? key.components = none)
      (hok : s.workspace.files.checkLibrary key = .ok ()) :
      Move s t
        { s.withMissed t none with
          registry := s.registry.insert key.components ⟨s.workspace.images.length⟩
          workspace := s.workspace.append ⟨key, s.registry.config, s.registry.deserializer, {}, {}, 0, 0⟩ }
        (some ⟨t, path, .ok ⟨s.workspace.images.length⟩⟩)

theorem move_look (s : Sharing τ D δ) (t : τ) (path : Path) : Move s t (s.look t path).1 (s.look t path).2 := by
  unfold look
  split
  next fault hpath => exact .lost hpath
  next key hpath =>
    split
    next id hfind => exact .hit hpath hfind
    next hfind => exact .miss hpath hfind

theorem move_add {path key : Path} (hmissed : s.missed t = some (path, key)) :
    Move s t (s.add t path key).1 (s.add t path key).2 := by
  unfold add
  cases hfind : s.registry.find? key.components with
  | some id =>
    rw [Registry.findOrOpen_of_some hfind]
    exact .hitLate hmissed hfind
  | none =>
    cases hcheck : s.workspace.files.checkLibrary key with
    | error e =>
      rw [Registry.findOrOpen_of_error hfind hcheck]
      exact .refuse hmissed hfind hcheck
    | ok u =>
      rw [Registry.findOrOpen_of_ok hfind hcheck]
      exact .insert hmissed hfind hcheck

theorem move_of_step {next : OpenStep} (h : s.step t next = some (s', e)) : Move s t s' e := by
  cases next with
  | look path =>
    cases hmissed : s.missed t with
    | some m => simp [step, hmissed] at h
    | none =>
      have hlook : s.look t path = (s', e) := by simpa [step, hmissed] using h
      have hmove := move_look s t path
      rwa [hlook] at hmove
  | add =>
    cases hmissed : s.missed t with
    | none => simp [step, hmissed] at h
    | some m =>
      have hadd : s.add t m.1 m.2 = (s', e) := by simpa [step, hmissed] using h
      have hmove := move_add hmissed
      rwa [hadd] at hmove

/-- `Runs s es s'`: threads opening libraries, in any order of their steps, while the images are used, lead
from `s` to `s'` and are answered `es`. -/
inductive Runs (s : Sharing τ D δ) : List (Opened τ) → Sharing τ D δ → Prop
  | refl : Runs s [] s
  | step {es s₁ s₂ t next e} : Runs s es s₁ → s₁.step t next = some (s₂, e) → Runs s (es ++ e.toList) s₂
  | use {es s₁ ws} : Runs s es s₁ → s₁.workspace.Keeps ws → Runs s es { s₁ with workspace := ws }

/-- What a caller does whom nobody comes between is one of the runs. -/
theorem runs_openLibrary (s : Sharing τ D δ) {t : τ} (hfree : s.missed t = none) (path : Path) :
    ∃ answer s', Runs s [⟨t, path, answer⟩] s' ∧
      s.registry.openLibrary s.workspace path = (answer, s'.registry, s'.workspace) := by
  have hlook : s.step t (.look path) = some (s.look t path) := by simp [step, hfree]
  unfold Registry.openLibrary
  cases hpath : s.workspace.files.canonical path with
  | error fault =>
    simp only [look, hpath] at hlook
    exact ⟨_, s, Runs.refl.step hlook, rfl⟩
  | ok key =>
    cases hfind : s.registry.find? key.components with
    | some id =>
      simp only [look, hpath, hfind] at hlook
      exact ⟨_, s, Runs.refl.step hlook, by simp only [hfind]⟩
    | none =>
      simp only [look, hpath, hfind] at hlook
      have hadd : (s.withMissed t (some (path, key))).step t .add =
          some ((s.withMissed t (some (path, key))).add t path key) := by simp [step, withMissed]
      exact ⟨_, _, (Runs.refl.step hlook).step hadd, by simp only [hfind]; rfl⟩

/-! ## What the registry holds -/

omit [DecidableEq τ] in
theorem form_of_canonical {files : FileSystem} {p key : Path} (h : files.canonical p = .ok key) :
    files.form p = .ok key.components := by
  rw [FileSystem.form, h]
  rfl

/-- The open was answered with the image `id`, and its path has the canonical form `form`. -/
def Gives (files : FileSystem) (o : Opened τ) (form : List Path.Component) (id : ImageId) : Prop :=
  o.answer = .ok id ∧ files.form o.path = .ok form

omit [DecidableEq τ] in
theorem exists_gives_append {files : FileSystem} {es es' : List (Opened τ)} {form : List Path.Component}
    {id : ImageId} :
    (∃ o ∈ es ++ es', Gives files o form id) ↔
      (∃ o ∈ es, Gives files o form id) ∨ ∃ o ∈ es', Gives files o form id := by
  simp only [List.mem_append, or_and_right, exists_or]

/-- An image is that of a canonical path which one of the opens that were given it has found. -/
structure IsImageOf (files : FileSystem) (es : List (Opened τ)) (ws : Workspace D δ) (form : List Path.Component)
    (id : ImageId) : Prop where
  image : ∃ image, ws.image? id = some image ∧ image.path.components = form ∧
    ∃ o ∈ es, o.answer = .ok id ∧ files.canonical o.path = .ok image.path

omit [DecidableEq τ] in
theorem IsImageOf.append {files : FileSystem} {es : List (Opened τ)} {ws : Workspace D δ}
    {form : List Path.Component} {id : ImageId} (h : IsImageOf files es ws form id) (es' : List (Opened τ)) :
    IsImageOf files (es ++ es') ws form id := by
  obtain ⟨image, himage, hform, o, ho, hid, hkey⟩ := h.image
  exact ⟨image, himage, hform, o, List.mem_append_left _ ho, hid, hkey⟩

omit [DecidableEq τ] in
theorem IsImageOf.keep {files : FileSystem} {es : List (Opened τ)} {ws ws' : Workspace D δ}
    {form : List Path.Component} {id : ImageId} (h : IsImageOf files es ws form id) (hkeeps : ws.Keeps ws') :
    IsImageOf files es ws' form id := by
  obtain ⟨image, himage, hform, o, ho, hid, hkey⟩ := h.image
  obtain ⟨image', himage', hpath⟩ := hkeeps.path id image himage
  exact ⟨image', himage', hpath ▸ hform, o, ho, hid, hpath ▸ hkey⟩

/-- The registry holds what has been answered to the opens `es`, over the given files. -/
structure Sound (files : FileSystem) (es : List (Opened τ)) (s : Sharing τ D δ) : Prop where
  files_eq : s.workspace.files = files
  missed : ∀ t path key, s.missed t = some (path, key) → files.canonical path = .ok key
  canonical : ∀ o ∈ es, ∀ id, o.answer = .ok id → ∃ form, files.form o.path = .ok form
  find?_iff : ∀ form id, s.registry.find? form = some id ↔ ∃ o ∈ es, Gives files o form id
  image : ∀ form id, s.registry.find? form = some id → IsImageOf files es s.workspace form id
  nodup : (s.registry.images.map (·.1)).Nodup

variable {files : FileSystem} {es : List (Opened τ)}

omit [DecidableEq τ] in
theorem sound_start (config : SessionConfig) (deserializer : D) (ws : Workspace D δ) :
    (start config deserializer ws : Sharing τ D δ).Sound ws.files [] where
  files_eq := rfl
  missed := nofun
  canonical := nofun
  find?_iff := by simp [start, Registry.find?]
  image := nofun
  nodup := List.nodup_nil

omit [DecidableEq τ] in
/-- The registry stays as it is while somebody is told an error, or the image that is there. -/
theorem Sound.quiet (hs : s.Sound files es) (hregistry : s'.registry = s.registry)
    (hworkspace : s'.workspace = s.workspace)
    (hmissed : ∀ u path key, s'.missed u = some (path, key) → files.canonical path = .ok key)
    (he : ∀ o ∈ e, ∀ id, o.answer = .ok id → ∃ form, files.form o.path = .ok form ∧
      s.registry.find? form = some id) : s'.Sound files (es ++ e.toList) where
  files_eq := hworkspace ▸ hs.files_eq
  missed := hmissed
  canonical o ho id hid := by
    rcases List.mem_append.1 ho with ho | ho
    · exact hs.canonical o ho id hid
    · obtain ⟨form, hform, -⟩ := he o (Option.mem_toList.1 ho) id hid
      exact ⟨form, hform⟩
  find?_iff form id := by
    rw [hregistry, exists_gives_append, ← hs.find?_iff form id]
    refine (or_iff_left_of_imp ?_).symm
    rintro ⟨o, ho, hid, hform⟩
    obtain ⟨form', hform', hfind⟩ := he o (Option.mem_toList.1 ho) id hid
    obtain rfl : form = form' := Except.ok.inj (hform.symm.trans hform')
    exact hfind
  image form id hfind := by
    rw [hworkspace]
    exact (hs.image form id (hregistry ▸ hfind)).append _
  nodup := hregistry ▸ hs.nodup

theorem Sound.withMissed (hs : s.Sound files es) {missed : Option (Path × Path)}
    (hmissed : ∀ path key, missed = some (path, key) → files.canonical path = .ok key) (u : τ)
    {path key : Path} (h : (s.withMissed t missed).missed u = some (path, key)) :
    files.canonical path = .ok key := by
  unfold Sharing.withMissed at h
  by_cases hu : u = t
  · exact hmissed path key (by simpa [hu] using h)
  · exact hs.missed u path key (by simpa [hu] using h)

theorem Sound.cleared (hs : s.Sound files es) (u : τ) {path key : Path}
    (h : (s.withMissed t none).missed u = some (path, key)) : files.canonical path = .ok key :=
  hs.withMissed (by simp) u h

/-- An image that is added is under one form only, for it is a new one, and under that of its own path. -/
theorem Sound.insert (hs : s.Sound files es) {path key : Path} (hmissed : s.missed t = some (path, key))
    (hfind : s.registry.find? key.components = none) {image : LibraryImage D δ} (himage : image.path = key) :
    Sound files (es ++ [⟨t, path, .ok ⟨s.workspace.images.length⟩⟩])
      { s.withMissed t none with
        registry := s.registry.insert key.components ⟨s.workspace.images.length⟩
        workspace := s.workspace.append image } where
  files_eq := hs.files_eq
  missed u _ _ := hs.cleared u
  canonical o ho id hid := by
    rcases List.mem_append.1 ho with ho | ho
    · exact hs.canonical o ho id hid
    · obtain rfl := List.mem_singleton.1 ho
      exact ⟨_, form_of_canonical (hs.missed t path key hmissed)⟩
  find?_iff form id := by
    have hnew : (∃ o ∈ [⟨t, path, .ok ⟨s.workspace.images.length⟩⟩], Gives files o form id) ↔
        form = key.components ∧ ⟨s.workspace.images.length⟩ = id := by
      simp [Gives, form_of_canonical (hs.missed t path key hmissed), and_comm, eq_comm]
    rw [Registry.find?_insert, exists_gives_append, hnew, ← hs.find?_iff form id]
    by_cases hform : form = key.components
    · simp [hform, hfind]
    · simp [hform]
  image form id hid := by
    rw [Registry.find?_insert] at hid
    split at hid
    next hform =>
      obtain rfl := Option.some.inj hid
      refine ⟨image, s.workspace.image?_append_self image, himage ▸ hform.symm, _,
        List.mem_append_right _ List.mem_cons_self, rfl, ?_⟩
      rw [himage]
      exact hs.missed t path key hmissed
    next => exact ((hs.image form id hid).keep (s.workspace.keeps_append image)).append _
  -- the second look, under the lock, was in vain, so the form is a new one
  nodup := by
    refine List.nodup_cons.2 ⟨fun hmem => ?_, hs.nodup⟩
    obtain ⟨entry, hentry, hform⟩ := List.mem_map.1 hmem
    have hthere := Registry.find?_of_mem hs.nodup hentry
    rw [hform, hfind] at hthere
    cases hthere

theorem Sound.move (hs : s.Sound files es) (h : Move s t s' e) : s'.Sound files (es ++ e.toList) := by
  cases h with
  | lost hpath => exact hs.quiet rfl rfl hs.missed (by simp)
  | @hit path key id hpath hfind =>
    rw [hs.files_eq] at hpath
    refine hs.quiet rfl rfl hs.missed fun o ho id' hid => ?_
    obtain rfl := Option.some.inj ho
    obtain rfl := Except.ok.inj hid
    exact ⟨_, form_of_canonical hpath, hfind⟩
  | @miss path key hpath hfind =>
    rw [hs.files_eq] at hpath
    refine hs.quiet rfl rfl (fun u _ _ => hs.withMissed (fun path' key' h => ?_) u) nofun
    cases h
    exact hpath
  | @hitLate path key id hmissed hfind =>
    refine hs.quiet rfl rfl (fun u _ _ => hs.cleared u) fun o ho id' hid => ?_
    obtain rfl := Option.some.inj ho
    obtain rfl := Except.ok.inj hid
    exact ⟨_, form_of_canonical (hs.missed t path key hmissed), hfind⟩
  | refuse hmissed hfind he => exact hs.quiet rfl rfl (fun u _ _ => hs.cleared u) (by simp)
  | insert hmissed hfind hok => exact hs.insert hmissed hfind rfl

omit [DecidableEq τ] in
theorem Sound.use (hs : s.Sound files es) {ws : Workspace D δ} (hkeeps : s.workspace.Keeps ws) :
    Sound files es { s with workspace := ws } where
  files_eq := hkeeps.files_eq.trans hs.files_eq
  missed := hs.missed
  canonical := hs.canonical
  find?_iff := hs.find?_iff
  image form id hfind := (hs.image form id hfind).keep hkeeps
  nodup := hs.nodup

theorem Runs.sound {start : Sharing τ D δ} (h : Runs start es s) (hstart : start.Sound files []) :
    s.Sound files es := by
  induction h with
  | refl => exact hstart
  | step _ hstep ih => exact ih.move (move_of_step hstep)
  | use _ hkeeps ih => exact ih.use hkeeps

/-! ## What the registry says -/

section

omit [DecidableEq τ]

variable {o o' : Opened τ} {form : List Path.Component} {id id' : ImageId}

theorem Sound.gives (hs : s.Sound files es) (ho : o ∈ es) (hid : o.answer = .ok id) :
    ∃ form, files.form o.path = .ok form ∧ s.registry.find? form = some id := by
  obtain ⟨form, hform⟩ := hs.canonical o ho id hid
  exact ⟨form, hform, (hs.find?_iff form id).2 ⟨o, ho, hid, hform⟩⟩

/-- An image is under one form only. -/
theorem Sound.form_unique (hs : s.Sound files es) {form' : List Path.Component} (h : s.registry.find? form = some id)
    (h' : s.registry.find? form' = some id) : form = form' := by
  obtain ⟨image, himage, rfl, -⟩ := (hs.image form id h).image
  obtain ⟨image', himage', rfl, -⟩ := (hs.image form' id h').image
  obtain rfl : image = image' := Option.some.inj (himage.symm.trans himage')
  rfl

/-- Opens are given the same image just when their paths have the same canonical form. -/
theorem Sound.form_eq_iff (hs : s.Sound files es) (ho : o ∈ es) (ho' : o' ∈ es)
    (hid : o.answer = .ok id) (hid' : o'.answer = .ok id') :
    files.form o.path = files.form o'.path ↔ id = id' := by
  obtain ⟨form, hform, hfind⟩ := hs.gives ho hid
  obtain ⟨form', hform', hfind'⟩ := hs.gives ho' hid'
  rw [hform, hform']
  constructor
  · intro heq
    rw [Except.ok.inj heq, hfind'] at hfind
    exact (Option.some.inj hfind).symm
  · rintro rfl
    exact congrArg Except.ok (hs.form_unique hfind hfind')

theorem Sound.get?_eq_some_iff (hs : s.Sound files es) {p : Path} :
    s.registry.get? files p = some id ↔
      ∃ o ∈ es, o.answer = .ok id ∧ files.form o.path = files.form p := by
  unfold Registry.get?
  cases hp : files.form p with
  | ok form => exact hs.find?_iff form id
  | error fault =>
    refine iff_of_false nofun ?_
    rintro ⟨o, ho, hid, hfault⟩
    obtain ⟨form, hform⟩ := hs.canonical o ho id hid
    rw [hform] at hfault
    cases hfault

/-- The canonical forms of the paths that have been opened with success. -/
def openedForms (files : FileSystem) (es : List (Opened τ)) : List (List Path.Component) :=
  es.filterMap fun o =>
    match o.answer, files.form o.path with
    | .ok _, .ok form => some form
    | _, _ => none

theorem mem_openedForms : form ∈ openedForms files es ↔ ∃ o ∈ es, ∃ id, Gives files o form id := by
  unfold openedForms
  rw [List.mem_filterMap]
  refine exists_congr fun o => and_congr_right fun _ => ?_
  unfold Gives
  cases o.answer <;> cases files.form o.path <;> simp

theorem Sound.mem_forms_iff (hs : s.Sound files es) :
    form ∈ s.registry.images.map (·.1) ↔ form ∈ openedForms files es := by
  rw [List.mem_map, mem_openedForms]
  constructor
  · rintro ⟨entry, hentry, rfl⟩
    obtain ⟨o, ho, hgives⟩ := (hs.find?_iff entry.1 entry.2).1 (Registry.find?_of_mem hs.nodup hentry)
    exact ⟨o, ho, entry.2, hgives⟩
  · rintro ⟨o, ho, id, hgives⟩
    exact ⟨(form, id), Registry.mem_of_find? ((hs.find?_iff form id).2 ⟨o, ho, hgives⟩), rfl⟩

theorem Sound.size_eq (hs : s.Sound files es) : s.registry.size = (openedForms files es).toFinset.card := by
  have hsame : (openedForms files es).toFinset = (s.registry.images.map (·.1)).toFinset := by
    ext form
    rw [List.mem_toFinset, List.mem_toFinset, hs.mem_forms_iff]
  rw [hsame, List.toFinset_card_of_nodup hs.nodup, List.length_map]
  rfl

/-! ## Listing the images -/

theorem Sound.mem_values_iff (hs : s.Sound files es) :
    id ∈ s.registry.values ↔ ∃ o ∈ es, o.answer = .ok id := by
  rw [Registry.values, List.mem_map]
  constructor
  · rintro ⟨entry, hentry, rfl⟩
    obtain ⟨o, ho, hid, -⟩ := (hs.find?_iff entry.1 entry.2).1 (Registry.find?_of_mem hs.nodup hentry)
    exact ⟨o, ho, hid⟩
  · rintro ⟨o, ho, hid⟩
    obtain ⟨form, -, hfind⟩ := hs.gives ho hid
    exact ⟨(form, id), Registry.mem_of_find? hfind, rfl⟩

theorem Sound.nodup_values (hs : s.Sound files es) : s.registry.values.Nodup := by
  refine (List.Nodup.of_map _ hs.nodup).map_on fun entry hentry entry' hentry' hid => ?_
  have hfind := Registry.find?_of_mem hs.nodup hentry
  have hfind' := Registry.find?_of_mem hs.nodup hentry'
  exact Prod.ext (hs.form_unique hfind (hid ▸ hfind')) hid

/-- The name of an image is what is shown of a canonical path that an open has found. -/
theorem Sound.exists_name (hs : s.Sound files es) (ho : o ∈ es) (hid : o.answer = .ok id) :
    ∃ o' ∈ es, o'.answer = .ok id ∧ ∃ key, files.canonical o'.path = .ok key ∧
      s.workspace.libraryName id = key.text := by
  obtain ⟨form, -, hfind⟩ := hs.gives ho hid
  obtain ⟨image, himage, -, o', ho', hid', hkey⟩ := (hs.image form id hfind).image
  refine ⟨o', ho', hid', image.path, hkey, ?_⟩
  rw [Workspace.libraryName, himage]
  rfl

/-- Canonical paths that are texts are told apart by what is shown of them. -/
theorem Sound.name_injective (hs : s.Sound files es)
    (htexts : ∀ o ∈ es, ∀ id key, o.answer = .ok id → files.canonical o.path = .ok key → ∃ text, key = .ofText text)
    (ho : o ∈ es) (hid : o.answer = .ok id) (ho' : o' ∈ es) (hid' : o'.answer = .ok id')
    (hname : s.workspace.libraryName id = s.workspace.libraryName id') : id = id' := by
  obtain ⟨first, hfirst, hid, key, hkey, hshown⟩ := hs.exists_name ho hid
  obtain ⟨second, hsecond, hid', key', hkey', hshown'⟩ := hs.exists_name ho' hid'
  obtain ⟨text, rfl⟩ := htexts first hfirst id key hid hkey
  obtain ⟨text', rfl⟩ := htexts second hsecond id' key' hid' hkey'
  have htext : text = text' := by
    rw [hshown, hshown', Path.text_ofText, Path.text_ofText] at hname
    exact hname
  refine (hs.form_eq_iff hfirst hsecond hid hid').1 ?_
  rw [form_of_canonical hkey, form_of_canonical hkey', htext]

end

/-- Who is told an error has changed nothing. -/
theorem Move.of_error {o : Opened τ} (h : Move s t s' (some o)) {e : LibraryError} (he : o.answer = .error e) :
    s'.registry = s.registry ∧ s'.workspace = s.workspace := by
  generalize ho : some o = shown at h
  cases h with
  | lost | refuse => exact ⟨rfl, rfl⟩
  | miss => cases ho
  | hit | hitLate | insert =>
    obtain rfl := Option.some.inj ho
    cases he

/-! ## The result -/

/-- **One image for each library.** However the opens of threads interleave, on any file system: opens that
succeed are given the same image just when their paths have the same canonical form, as paths are compared;
the registry counts the canonical forms that have been opened with success; asking for the image of a path
gives that of the opens whose paths have the same canonical form, if one has succeeded, and nothing otherwise;
an open that fails leaves the registry and the images as they were; and the name of an image is what is shown
of its canonical path. In whatever order the map gives the images, the list of libraries has each image that
has been given once, and no name comes before a smaller one. The names are strictly increasing where the
canonical paths are texts. -/
theorem one_image_per_library {config : SessionConfig} {deserializer : D} {ws : Workspace D δ}
    (h : Runs (start config deserializer ws) es s) :
    (∀ o ∈ es, ∀ o' ∈ es, ∀ id id', o.answer = .ok id → o'.answer = .ok id' →
      (ws.files.form o.path = ws.files.form o'.path ↔ id = id')) ∧
    s.registry.size = (openedForms ws.files es).toFinset.card ∧
    (∀ p id, s.registry.get? ws.files p = some id ↔
      ∃ o ∈ es, o.answer = .ok id ∧ ws.files.form o.path = ws.files.form p) ∧
    (∀ t next s' o e, s.step t next = some (s', some o) → o.answer = .error e →
      s'.registry = s.registry ∧ s'.workspace = s.workspace) ∧
    (∀ o ∈ es, ∀ id, o.answer = .ok id → ∃ o' ∈ es, o'.answer = .ok id ∧
      ∃ key, ws.files.canonical o'.path = .ok key ∧ s.workspace.libraryName id = key.text) ∧
    ∀ order : List ImageId → List ImageId, (∀ ids, (order ids).Perm ids) →
      let libraries := s.registry.libraries s.workspace order
      libraries.Nodup ∧
      (∀ id, id ∈ libraries ↔ ∃ o ∈ es, o.answer = .ok id) ∧
      (libraries.Pairwise fun a b => s.workspace.libraryName a ≤ s.workspace.libraryName b) ∧
      ((∀ o ∈ es, ∀ id key, o.answer = .ok id → ws.files.canonical o.path = .ok key →
          ∃ text, key = .ofText text) →
        libraries.Pairwise fun a b => s.workspace.libraryName a < s.workspace.libraryName b) := by
  have hs : s.Sound ws.files es := h.sound (sound_start config deserializer ws)
  refine ⟨fun o ho o' ho' id id' => hs.form_eq_iff ho ho', hs.size_eq, fun p id => hs.get?_eq_some_iff,
    fun t next s' o e hstep => (move_of_step hstep).of_error, fun o ho id => hs.exists_name ho,
    fun order horder => ?_⟩
  intro libraries
  have hperm : libraries.Perm s.registry.values := (s.workspace.sortByName_perm _).trans (horder _)
  have hnodup : libraries.Nodup := hperm.nodup_iff.2 hs.nodup_values
  have hmem : ∀ id, id ∈ libraries ↔ ∃ o ∈ es, o.answer = .ok id := fun id => hperm.mem_iff.trans hs.mem_values_iff
  have hsorted := s.workspace.pairwise_sortByName (order s.registry.values)
  refine ⟨hnodup, hmem, hsorted, fun htexts => (hsorted.and hnodup).imp_of_mem ?_⟩
  rintro a b ha hb ⟨hle, hne⟩
  obtain ⟨o, ho, hid⟩ := (hmem a).1 ha
  obtain ⟨o', ho', hid'⟩ := (hmem b).1 hb
  exact lt_of_le_of_ne hle (mt (hs.name_injective htexts ho hid ho' hid') hne)

/-- Two threads look in vain for one library, under two spellings of its path, before either adds it. -/
theorem one_image_per_library_race :
    let tree : FileTree :=
      ⟨fun place => if place = [Utf8.encode "lib", Utf8.encode "a.tlb"] then some (.file []) else some .directory, []⟩
    let files := tree.toFileSystem
    let round : Path := .ofText "lib/../lib/a.tlb"
    let straight : Path := .ofText "/lib/a.tlb"
    let opens : List (Opened Bool) := [⟨true, round, .ok ⟨0⟩⟩, ⟨false, straight, .ok ⟨0⟩⟩]
    ∃ s : Sharing Bool Unit Unit, Runs (start {} () ⟨files, []⟩) opens s ∧
      files.form round = files.form straight ∧ s.registry.get? files straight = some ⟨0⟩ ∧ s.registry.size = 1 ∧
      ⟨0⟩ ∈ s.registry.libraries s.workspace id := by
  intro tree files round straight opens
  let s₀ : Sharing Bool Unit Unit := start {} () ⟨files, []⟩
  let s₁ := s₀.withMissed false (some (straight, straight))
  let s₂ := s₁.withMissed true (some (round, straight))
  let s₃ := (s₂.add true round straight).1
  let s₄ := (s₃.add false straight straight).1
  have hmiss : s₀.step false (.look straight) = some (s₁, none) := rfl
  have hmissToo : s₁.step true (.look round) = some (s₂, none) := rfl
  have hadded : s₂.step true .add = some (s₃, some ⟨true, round, .ok ⟨0⟩⟩) := rfl
  have hfound : s₃.step false .add = some (s₄, some ⟨false, straight, .ok ⟨0⟩⟩) := rfl
  have hruns : Runs s₀ opens s₄ := (((Runs.refl.step hmiss).step hmissToo).step hadded).step hfound
  obtain ⟨himages, hsize, hget, -, -, hlist⟩ := one_image_per_library hruns
  have hsame : files.form round = files.form straight :=
    (himages _ List.mem_cons_self _ (List.mem_cons_of_mem _ List.mem_cons_self) _ _ rfl rfl).2 rfl
  obtain ⟨-, hmem, -, -⟩ := hlist id fun _ => .refl _
  exact ⟨s₄, hruns, hsame, (hget _ _).2 ⟨_, List.mem_cons_self, rfl, hsame⟩, hsize.trans rfl,
    (hmem _).2 ⟨_, List.mem_cons_self, rfl⟩⟩

/-- Two files whose names are single bytes that are no characters are two libraries. What is shown of their paths is
the same, so their names do not increase strictly, in whatever order the map gives them. -/
theorem one_image_per_library_equal_names :
    let tree : FileTree := .ofFiles [([0xFF], []), ([0xFE], [])]
    let opens : List (Opened Unit) := [⟨(), ⟨[0xFF]⟩, .ok ⟨0⟩⟩, ⟨(), ⟨[0xFE]⟩, .ok ⟨1⟩⟩]
    ∃ s : Sharing Unit Unit Unit, Runs (start {} () ⟨tree.toFileSystem, []⟩) opens s ∧
      s.workspace.libraryName ⟨0⟩ = s.workspace.libraryName ⟨1⟩ ∧
      ∀ order : List ImageId → List ImageId, (∀ ids, (order ids).Perm ids) →
        ¬ (s.registry.libraries s.workspace order).Pairwise fun a b =>
          s.workspace.libraryName a < s.workspace.libraryName b := by
  intro tree opens
  let s₀ : Sharing Unit Unit Unit := start {} () ⟨tree.toFileSystem, []⟩
  let s₁ := s₀.withMissed () (some (⟨[0xFF]⟩, ⟨[slash, 0xFF]⟩))
  let s₂ := (s₁.add () ⟨[0xFF]⟩ ⟨[slash, 0xFF]⟩).1
  let s₃ := s₂.withMissed () (some (⟨[0xFE]⟩, ⟨[slash, 0xFE]⟩))
  let s₄ := (s₃.add () ⟨[0xFE]⟩ ⟨[slash, 0xFE]⟩).1
  have hmiss : s₀.step () (.look ⟨[0xFF]⟩) = some (s₁, none) := rfl
  have hadded : s₁.step () .add = some (s₂, some ⟨(), ⟨[0xFF]⟩, .ok ⟨0⟩⟩) := rfl
  have hmissToo : s₂.step () (.look ⟨[0xFE]⟩) = some (s₃, none) := rfl
  have haddedToo : s₃.step () .add = some (s₄, some ⟨(), ⟨[0xFE]⟩, .ok ⟨1⟩⟩) := rfl
  have hruns : Runs s₀ opens s₄ := (((Runs.refl.step hmiss).step hadded).step hmissToo).step haddedToo
  have hnames : s₄.workspace.libraryName ⟨0⟩ = s₄.workspace.libraryName ⟨1⟩ := by
    decide +kernel
  refine ⟨s₄, hruns, hnames, fun order horder hincreasing => ?_⟩
  have hperm : (s₄.registry.libraries s₄.workspace order).Perm [⟨1⟩, ⟨0⟩] :=
    (s₄.workspace.sortByName_perm _).trans (horder _)
  -- neither of the two can stand before the other
  have hnone : ∀ a ∈ s₄.registry.libraries s₄.workspace order, ∀ b ∈ s₄.registry.libraries s₄.workspace order,
      ¬ s₄.workspace.libraryName a < s₄.workspace.libraryName b := by
    intro a ha b hb
    have ha' := hperm.mem_iff.1 ha
    have hb' := hperm.mem_iff.1 hb
    simp only [List.mem_cons, List.not_mem_nil, or_false] at ha' hb'
    rcases ha' with rfl | rfl <;> rcases hb' with rfl | rfl <;> simp [hnames]
  have hlength : (s₄.registry.libraries s₄.workspace order).length = 2 := hperm.length_eq
  obtain ⟨a, b, hpair⟩ := List.length_eq_two.1 hlength
  rw [hpair] at hincreasing hnone
  exact hnone a (by simp) b (by simp) ((List.pairwise_cons.1 hincreasing).1 b (by simp))

end Sharing
end TernBackend
