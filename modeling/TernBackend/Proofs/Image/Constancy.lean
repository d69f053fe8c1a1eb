import TernBackend.Container.Content
import TernBackend.Files.FileTree
import TernBackend.Proofs.Image.Evolution

/-!
# Images do not change their minds

A run of calls is made on the images of a workspace, and between the calls the files may become any others
(`WorkspaceCall`). After each call nobody is computing anything, and every image has gone on from what it was
(`Workspace.serve_continues`). So an image that has once been asked for its name or for its descriptor has the
answer in its cell until the end of the run, and all answers of the run are that one (`image_keeps_answers`).

While the deserializer of an image runs, the image is in flight, and whatever is asked in there leaves images
in flight alone (`Workspace.descriptorWithin_spares`). So the image that is being materialized can be asked for its
name, but to be asked for its descriptor is a cycle.
-/

namespace TernBackend

namespace Workspace

variable {D δ : Type}

/-! ## What a deserializer meets -/

/-- The images whose descriptors are being computed. -/
def inFlight (ws : Workspace D δ) : Set ImageId :=
  {id | ∃ image, ws.image? id = some image ∧ image.descriptor.runner ≠ none}

/-- The workspaces in which a deserialization asks its questions, and those in which the deserializations that
it sets off ask theirs. -/
def asked {α : Type} (nested : ImageId → Workspace D δ → Outcome δ × Workspace D δ)
    (inner : ImageId → Workspace D δ → List (Workspace D δ)) (id : ImageId) :
    Deserialization δ α → Workspace D δ → List (Workspace D δ)
  | .finish _, _ => []
  | .panic _, _ => []
  | .fragment name next, ws => ws :: asked nested inner id (next (ws.fragment id name)) ws
  | .moduleName other next, ws =>
    ws :: asked nested inner id (next (ws.moduleName other).1) (ws.moduleName other).2
  | .descriptor other next, ws =>
    ws :: inner other ws ++
      match nested other ws with
      | (.answered answer, ws) => asked nested inner id (next answer) ws
      | (.panicked _, _) => []
  | .progress other next, ws => ws :: asked nested inner id (next (ws.progress other)) ws

/-- The workspaces in which something is asked during a call for the descriptor of an image, with at most `depth`
materializations one inside the other. -/
def duringWithin (deserialize : D → Deserialization.Deserializer δ) :
    Nat → ImageId → Workspace D δ → List (Workspace D δ)
  | 0, _, _ => []
  | depth + 1, id, ws =>
    match ws.image? id, (ws.header id).1 with
    | some image, .ok header =>
      if image.Idle then
        asked (descriptorWithin deserialize depth) (duringWithin deserialize depth) id
          (deserialize image.deserializer (image.request header)) (ws.deserializing id)
      else []
    | _, _ => []

/-- The workspaces in which something is asked during a call for the descriptor of an image. -/
def during (deserialize : D → Deserialization.Deserializer δ) (ws : Workspace D δ) (id : ImageId) :
    List (Workspace D δ) :=
  duringWithin deserialize ws.images.length id ws

variable {ws ws' : Workspace D δ} {s : Set ImageId} {id : ImageId} {image : LibraryImage D δ}
  {deserialize : D → Deserialization.Deserializer δ}

theorem EvolvesOn.inFlight (h : EvolvesOn s ws ws') (hs : s ⊆ ws.inFlight) : s ⊆ ws'.inFlight := by
  intro id hid
  obtain ⟨image, himage, hrunner⟩ := hs hid
  obtain ⟨image', himage', honward⟩ := h.image? hid himage
  exact ⟨image', himage', honward.runner_eq ▸ hrunner⟩

/-- An idle image is not in flight, so taking it and all that follows concerns no image in flight. -/
theorem notMem_of_idle (hs : s ⊆ ws.inFlight) (himage : ws.image? id = some image) (hidle : image.Idle) :
    id ∉ s := by
  intro hid
  obtain ⟨image', himage', hrunner⟩ := hs hid
  obtain rfl : image = image' := Option.some.inj (himage.symm.trans himage')
  exact hrunner hidle.2

/-- A call leaves the images in flight alone, at every question in it and at its end. -/
def Spares (nested : ImageId → Workspace D δ → Outcome δ × Workspace D δ)
    (inner : ImageId → Workspace D δ → List (Workspace D δ)) : Prop :=
  ∀ id ws s, s ⊆ inFlight ws → EvolvesOn s ws (nested id ws).2 ∧ ∀ ws' ∈ inner id ws, EvolvesOn s ws ws'

theorem evolvesOn_run {α : Type} {nested : ImageId → Workspace D δ → Outcome δ × Workspace D δ}
    {inner : ImageId → Workspace D δ → List (Workspace D δ)} (hspares : Spares nested inner) (id : ImageId)
    (d : Deserialization δ α) :
    ∀ {ws : Workspace D δ}, s ⊆ ws.inFlight →
      EvolvesOn s ws (run nested id d ws).2 ∧ ∀ ws' ∈ asked nested inner id d ws, EvolvesOn s ws ws' := by
  induction d with
  | finish answer => exact fun {ws} _ => ⟨.refl s ws, by simp [asked]⟩
  | panic message => exact fun {ws} _ => ⟨.refl s ws, by simp [asked]⟩
  | fragment name next ih =>
    intro ws hs
    obtain ⟨hrun, hasked⟩ := ih (ws.fragment id name) hs
    exact ⟨hrun, List.forall_mem_cons.2 ⟨.refl s ws, hasked⟩⟩
  | progress other next ih =>
    intro ws hs
    obtain ⟨hrun, hasked⟩ := ih (ws.progress other) hs
    exact ⟨hrun, List.forall_mem_cons.2 ⟨.refl s ws, hasked⟩⟩
  | moduleName other next ih =>
    intro ws hs
    have hevolves : EvolvesOn s ws (ws.moduleName other).2 :=
      (ws.moduleName_evolves other).mono (Set.subset_univ s)
    obtain ⟨hrun, hasked⟩ := ih (ws.moduleName other).1 (hevolves.inFlight hs)
    refine ⟨hevolves.trans hrun, List.forall_mem_cons.2 ⟨.refl s ws, fun ws' h => ?_⟩⟩
    exact hevolves.trans (hasked ws' h)
  | descriptor other next ih =>
    intro ws hs
    obtain ⟨hnested, hinner⟩ := hspares other ws s hs
    rw [run, asked]
    rcases hresult : nested other ws with ⟨answer | message, after⟩
    · rw [hresult] at hnested
      obtain ⟨hrun, hasked⟩ := ih answer (hnested.inFlight hs)
      refine ⟨hnested.trans hrun, fun ws' h => ?_⟩
      rcases List.mem_append.1 h with h | h
      · exact List.forall_mem_cons.2 ⟨.refl s ws, hinner⟩ ws' h
      · exact hnested.trans (hasked ws' h)
    · rw [hresult] at hnested
      refine ⟨hnested, ?_⟩
      simp only [List.append_nil]
      exact List.forall_mem_cons.2 ⟨.refl s ws, hinner⟩

theorem mem_duringWithin {depth : Nat} {inner : Workspace D δ} :
    inner ∈ duringWithin deserialize (depth + 1) id ws ↔
      ∃ image header, ws.image? id = some image ∧ image.Idle ∧ (ws.header id).1 = .ok header ∧
        inner ∈ asked (descriptorWithin deserialize depth) (duringWithin deserialize depth) id
          (deserialize image.deserializer (image.request header)) (ws.deserializing id) := by
  rw [duringWithin]
  cases himage : ws.image? id with
  | none => simp
  | some image =>
    cases hheader : (ws.header id).1 with
    | error e => simp
    | ok header => by_cases hidle : image.Idle <;> simp [hidle]

/-- An idle image is not in flight, so a materialization of it leaves alone what is. -/
theorem materialize_spares {depth : Nat}
    (hnested : Spares (descriptorWithin deserialize depth) (duringWithin deserialize depth))
    (hs : s ⊆ ws.inFlight) (himage : ws.image? id = some image) (hidle : image.Idle) :
    EvolvesOn s ws
        (materialize deserialize (descriptorWithin deserialize depth) id image (ws.update id (·.taken))).2 ∧
      ∀ ws' ∈ duringWithin deserialize (depth + 1) id ws, EvolvesOn s ws ws' := by
  have hid := notMem_of_idle hs himage hidle
  cases hheader : (ws.header id).1 with
  | error e =>
    rw [materialize_of_error himage hheader]
    refine ⟨reading_evolvesOn hid, fun ws' hws' => ?_⟩
    obtain ⟨-, header, -, -, hok, -⟩ := mem_duringWithin.1 hws'
    simp [hheader] at hok
  | ok header =>
    rw [materialize_of_ok himage hheader]
    have hdeserializing : EvolvesOn s ws (ws.deserializing id) := deserializing_evolvesOn hid
    obtain ⟨hrun, hasked⟩ := evolvesOn_run hnested id (deserialize image.deserializer (image.request header))
      (hdeserializing.inFlight hs)
    refine ⟨hdeserializing.trans hrun, fun ws' hws' => ?_⟩
    obtain ⟨image', header', himage', -, hok, hmem⟩ := mem_duringWithin.1 hws'
    obtain rfl : image = image' := Option.some.inj (himage.symm.trans himage')
    obtain rfl : header = header' := by simpa [hheader] using hok
    exact hdeserializing.trans (hasked ws' hmem)

theorem descriptorWithin_zero (id : ImageId) (ws : Workspace D δ) :
    (descriptorWithin deserialize 0 id ws).2 = ws := by
  unfold descriptorWithin
  split
  · rfl
  · split <;> rfl

/-- Whatever is asked, and whatever the deserializers do, the images in flight are left alone. -/
theorem descriptorWithin_spares (depth : Nat) :
    Spares (descriptorWithin deserialize depth) (duringWithin deserialize depth) := by
  induction depth with
  | zero =>
    intro id ws s hs
    rw [descriptorWithin_zero]
    exact ⟨.refl s ws, by simp [duringWithin]⟩
  | succ depth ih =>
    intro id ws s hs
    by_cases hidle : ∃ image, ws.image? id = some image ∧ image.Idle
    · obtain ⟨image, himage, hidle⟩ := hidle
      obtain ⟨hmaterialize, hduring⟩ := materialize_spares ih hs himage hidle
      rw [descriptorWithin_of_idle deserialize depth himage hidle]
      exact ⟨hmaterialize.update (notMem_of_idle hs himage hidle) _, hduring⟩
    · obtain ⟨answer, hresult, -⟩ := descriptorWithin_of_not_idle deserialize (depth + 1)
        fun image himage h => hidle ⟨image, himage, h⟩
      rw [hresult]
      refine ⟨.refl s ws, fun ws' hws' => ?_⟩
      obtain ⟨image, -, himage, h, -⟩ := mem_duringWithin.1 hws'
      exact absurd ⟨image, himage, h⟩ hidle

/-- During a call for the descriptor of an image the image is in flight, and its header is there. -/
theorem image?_of_mem_during (hsound : ws.Sound) {inner : Workspace D δ}
    (hinner : inner ∈ ws.during deserialize id) :
    ∃ image header image', ws.image? id = some image ∧ (ws.header id).1 = .ok header ∧
      inner.image? id = some image' ∧ image.Underway image' ∧ image'.header.stored = some (.ok header) := by
  unfold during at hinner
  cases hdepth : ws.images.length with
  | zero => simp [hdepth, duringWithin] at hinner
  | succ depth =>
    rw [hdepth, mem_duringWithin] at hinner
    obtain ⟨image, header, himage, hidle, hheader, hmem⟩ := hinner
    obtain ⟨running, hrunning, hunderway, hstored⟩ := deserializing_image? hsound himage hidle hheader
    have hflight : {id} ⊆ (ws.deserializing id).inFlight :=
      Set.singleton_subset_iff.2 ⟨running, hrunning, hunderway.runner_ne⟩
    have hevolves := (evolvesOn_run (descriptorWithin_spares depth) id _ hflight).2 inner hmem
    obtain ⟨image', himage', honward⟩ := hevolves.image? rfl hrunning
    exact ⟨image, header, image', himage, hheader, himage', hunderway.onward honward,
      honward.header_stored _ hstored⟩

end Workspace

/-! ## Calls -/

/-- A call on a workspace, or a change to the files behind its back. -/
inductive WorkspaceCall (D : Type) where
  | files (fs : FileSystem)
  | openImage (path : Path) (config : SessionConfig) (deserializer : D)
  | moduleName (image : ImageId)
  | moduleDescriptor (image : ImageId)
  | progress (image : ImageId)

namespace Workspace

variable {D δ : Type}

/-- The workspace after a call. -/
def serve (deserialize : D → Deserialization.Deserializer δ) (ws : Workspace D δ) :
    WorkspaceCall D → Workspace D δ
  | .files fs => { ws with files := fs }
  | .openImage path config deserializer => (ws.openImage path config deserializer).2
  | .moduleName id => (ws.moduleName id).2
  | .moduleDescriptor id => (ws.moduleDescriptor deserialize id).2
  | .progress _ => ws

/-- The workspace after calls. -/
def serveAll (deserialize : D → Deserialization.Deserializer δ) (ws : Workspace D δ)
    (calls : List (WorkspaceCall D)) : Workspace D δ :=
  calls.foldl (serve deserialize) ws

/-- The calls, each with the workspace that it was made on. -/
def served (deserialize : D → Deserialization.Deserializer δ) :
    Workspace D δ → List (WorkspaceCall D) → List (Workspace D δ × WorkspaceCall D)
  | _, [] => []
  | ws, call :: calls => (ws, call) :: served deserialize (ws.serve deserialize call) calls

/-- Between calls every image is consistent, and nobody is computing its descriptor. -/
def AtRest (ws : Workspace D δ) : Prop :=
  ∀ id image, ws.image? id = some image → image.Consistent ∧ image.descriptor.runner = none

/-- The images that have been opened have gone on. -/
def Continues (ws ws' : Workspace D δ) : Prop :=
  ∀ id image, ws.image? id = some image → ∃ image', ws'.image? id = some image' ∧ image.Onward image'

variable {ws ws' ws'' : Workspace D δ} {id : ImageId} {image : LibraryImage D δ}
  {deserialize : D → Deserialization.Deserializer δ}

theorem Continues.refl (ws : Workspace D δ) : ws.Continues ws :=
  fun _ image himage => ⟨image, himage, .refl image⟩

theorem Continues.trans (h : ws.Continues ws') (h' : ws'.Continues ws'') : ws.Continues ws'' := by
  intro id image himage
  obtain ⟨image', himage', honward⟩ := h id image himage
  obtain ⟨image'', himage'', honward'⟩ := h' id image' himage'
  exact ⟨image'', himage'', honward.trans honward'⟩

theorem Evolves.continues (h : ws.Evolves ws') : ws.Continues ws' := fun _ _ himage => h.image? himage

theorem atRest_empty (files : FileSystem) : AtRest (⟨files, []⟩ : Workspace D δ) := by
  simp [AtRest, image?]

theorem AtRest.sound (h : ws.AtRest) : ws.Sound := fun id image himage => (h id image himage).1

theorem Evolves.atRest (h : ws.Evolves ws') (hrest : ws.AtRest) : ws'.AtRest := by
  intro id image' himage'
  obtain ⟨image, himage, honward⟩ := h.image?_before himage'
  obtain ⟨hc, hrunner⟩ := hrest id image himage
  exact ⟨honward.consistent hc, honward.runner_eq.trans hrunner⟩

theorem openImage_continues (hrest : ws.AtRest) (path : Path) (config : SessionConfig) (deserializer : D) :
    (ws.openImage path config deserializer).2.AtRest ∧
      ws.Continues (ws.openImage path config deserializer).2 := by
  unfold openImage
  split
  · exact ⟨hrest, .refl ws⟩
  · refine ⟨fun id image himage => ?_, fun id image himage => ⟨image, ?_, .refl image⟩⟩
    · simp only [image?, List.getElem?_append] at himage
      split at himage
      · exact hrest id image himage
      · obtain rfl := by simpa using List.mem_of_getElem? himage
        exact ⟨LibraryImage.consistent_opened path config deserializer, rfl⟩
    · exact (List.getElem?_append_left (List.getElem?_eq_some_iff.1 himage).1).trans himage

/-- What one call does: all are at rest again, and the images have gone on. -/
theorem serve_continues (hcalm : ∀ d request, (deserialize d request).NeverPanics) (hrest : ws.AtRest)
    (call : WorkspaceCall D) : (ws.serve deserialize call).AtRest ∧ ws.Continues (ws.serve deserialize call) := by
  cases call with
  | files fs => exact ⟨hrest, .refl ws⟩
  | progress id => exact ⟨hrest, .refl ws⟩
  | openImage path config deserializer => exact openImage_continues hrest path config deserializer
  | moduleName id =>
    have hevolves := ws.moduleName_evolves id
    exact ⟨hevolves.atRest hrest, hevolves.continues⟩
  | moduleDescriptor id =>
    have hevolves := (moduleDescriptor_described hcalm hrest.sound id).evolves
    exact ⟨hevolves.atRest hrest, hevolves.continues⟩

theorem serveAll_continues (hcalm : ∀ d request, (deserialize d request).NeverPanics)
    (calls : List (WorkspaceCall D)) :
    ∀ {ws : Workspace D δ}, ws.AtRest →
      (ws.serveAll deserialize calls).AtRest ∧ ws.Continues (ws.serveAll deserialize calls) := by
  induction calls with
  | nil => exact fun {ws} hrest => ⟨hrest, .refl ws⟩
  | cons call calls ih =>
    intro ws hrest
    obtain ⟨hrest', hcontinues⟩ := serve_continues hcalm hrest call
    obtain ⟨hend, hcontinues'⟩ := ih hrest'
    exact ⟨hend, hcontinues.trans hcontinues'⟩

theorem serveAll_append (calls calls' : List (WorkspaceCall D)) :
    ws.serveAll deserialize (calls ++ calls') = (ws.serveAll deserialize calls).serveAll deserialize calls' :=
  List.foldl_append

/-- Every call of a run is made on what the calls before it have left. -/
theorem exists_of_mem_served {calls : List (WorkspaceCall D)} {call : WorkspaceCall D} :
    ∀ {start : Workspace D δ}, (ws, call) ∈ start.served deserialize calls →
      ∃ before after, calls = before ++ call :: after ∧ ws = start.serveAll deserialize before := by
  induction calls with
  | nil => simp [served]
  | cons first calls ih =>
    intro start hmem
    rcases List.mem_cons.1 hmem with heq | hmem
    · cases heq
      exact ⟨[], calls, rfl, rfl⟩
    · obtain ⟨before, after, rfl, rfl⟩ := ih hmem
      exact ⟨first :: before, after, rfl, rfl⟩

/-- A call of a run is made when all are at rest, and the end of the run continues what comes of it. -/
theorem continues_of_mem_served (hcalm : ∀ d request, (deserialize d request).NeverPanics)
    {start : Workspace D δ} (hrest : start.AtRest) {calls : List (WorkspaceCall D)} {call : WorkspaceCall D}
    (hmem : (ws, call) ∈ start.served deserialize calls) :
    ws.AtRest ∧ start.Continues ws ∧
      (ws.serve deserialize call).Continues (start.serveAll deserialize calls) := by
  obtain ⟨before, after, rfl, rfl⟩ := exists_of_mem_served hmem
  obtain ⟨hrest', hbefore⟩ := serveAll_continues hcalm before hrest
  rw [serveAll_append]
  exact ⟨hrest', hbefore, (serveAll_continues hcalm after (serve_continues hcalm hrest' call).1).2⟩

/-! ## The result -/

/-- The answers that a consistent image gives, or might yet give. -/
theorem consistent_answers (hc : image.Consistent) :
    ∃ (header : Answer MetadataHeader) (descriptor : Answer δ),
      (∀ answer, image.header.stored = some answer → answer = header) ∧
      (∀ answer, image.descriptor.stored = some answer → answer = descriptor) ∧
      ∀ e, header = .error e → descriptor = .error e ∧ image.deserializations = 0 := by
  have hcount : (∀ header, image.header.stored ≠ some (.ok header)) → image.deserializations = 0 := by
    intro hnone
    by_contra hne
    obtain ⟨header, hstored⟩ := hc.header_ok hne
    exact hnone header hstored
  cases hheader : image.header.stored with
  | none =>
    refine ⟨.error unopened, .error unopened, by simp, fun answer hanswer => ?_, fun e he => ⟨?_, ?_⟩⟩
    · obtain ⟨header, hstored, -⟩ := hc.header_of_stored answer hanswer
      simp [hheader] at hstored
    · cases he
      rfl
    · exact hcount (by simp [hheader])
  | some header =>
    cases header with
    | error e =>
      refine ⟨.error e, .error e, by simp, fun answer hanswer => ?_, fun e' he => ⟨?_, ?_⟩⟩
      · obtain ⟨header, hstored, herror⟩ := hc.header_of_stored answer hanswer
        exact herror e (Option.some.inj (hstored.symm.trans hheader))
      · cases he
        rfl
      · exact hcount (by simp [hheader])
    | ok header =>
      refine ⟨.ok header, image.descriptor.stored.getD (.error unopened), by simp, ?_, by simp⟩
      intro answer hanswer
      simp [hanswer]

/-- A call for the name leaves the header there for the rest of the run. -/
theorem header_of_moduleName (hrest : ws.AtRest) (himage : ws.image? id = some image)
    (hcontinues : (ws.serve deserialize (.moduleName id)).Continues ws') {last : LibraryImage D δ}
    (hlast : ws'.image? id = some last) : last.header.stored = some (ws.header id).1 := by
  obtain ⟨read, hread, hstored⟩ := header_stored himage (hrest id image himage).1
  obtain ⟨last', hlast', honward⟩ := hcontinues id read hread
  obtain rfl : last = last' := Option.some.inj (hlast.symm.trans hlast')
  exact honward.header_stored _ hstored

/-- A call for the descriptor leaves the header and the descriptor there for the rest of the run. -/
theorem descriptor_of_moduleDescriptor (hcalm : ∀ d request, (deserialize d request).NeverPanics)
    (hrest : ws.AtRest) (himage : ws.image? id = some image)
    (hcontinues : (ws.serve deserialize (.moduleDescriptor id)).Continues ws') {last : LibraryImage D δ}
    (hlast : ws'.image? id = some last) :
    ∃ answer, (ws.moduleDescriptor deserialize id).1 = .answered answer ∧
      last.header.stored = some (ws.header id).1 ∧ last.descriptor.stored = some answer := by
  obtain ⟨answer, hanswer, hstored⟩ := (moduleDescriptor_described hcalm hrest.sound id).answered
  obtain ⟨landed, hlanded, hheader, hdescriptor⟩ := hstored image himage (hrest id image himage).2
  obtain ⟨last', hlast', honward⟩ := hcontinues id landed hlanded
  obtain rfl : last = last' := Option.some.inj (hlast.symm.trans hlast')
  exact ⟨answer, hanswer, honward.header_stored _ hheader, honward.descriptor_stored _ hdescriptor⟩

/-- During a call for the descriptor of an image its name is known, and its descriptor is a cycle. -/
theorem answers_of_mem_during (hsound : ws.Sound) (himage : ws.image? id = some image) {inner : Workspace D δ}
    (hinner : inner ∈ ws.during deserialize id) :
    (inner.progress id).headerReads = 1 ∧
      inner.moduleName id = ((ws.header id).1.map (·.moduleName), inner) ∧
      ∀ depth, descriptorWithin deserialize depth id inner =
        (.answered (.error (.cycle image.libraryName)), inner) := by
  obtain ⟨image', header, running, himage', hheader, hrunning, hunderway, hstored⟩ :=
    image?_of_mem_during hsound hinner
  obtain rfl : image = image' := Option.some.inj (himage.symm.trans himage')
  refine ⟨?_, ?_, fun depth => ?_⟩
  · have hc := hunderway.consistent (hsound id image himage)
    simp [progress, hrunning, LibraryImage.progress, hc.headerReads_eq, hstored]
  · rw [moduleName, header_of_stored hrunning hstored, hheader]
  · have hname : running.libraryName = image.libraryName := congrArg Path.text hunderway.path_eq
    rw [descriptorWithin_of_runner deserialize depth hrunning hunderway.stored_eq hunderway.runner_ne, hname]

end Workspace

/-- **An image never changes its mind.** An image has been opened among others, and any calls are made, on it
and on the others, with any changes to the files between them. The deserializers do whatever they like except
to panic. Then the header is read at most once and the deserializer is called at most once. All calls for the
name give the name in one header, and all calls for the descriptor end with one answer. There is no descriptor
without a header: if the header is an error, that error is the answer to every call, and the deserializer is
not called. Whenever something is asked while the image is being materialized, by its own deserializer or by
those that it sets off, the name is already there, and to ask for the descriptor is a cycle. -/
theorem image_keeps_answers {D δ : Type} (deserialize : D → Deserialization.Deserializer δ)
    (hcalm : ∀ d request, (deserialize d request).NeverPanics) (files : FileSystem)
    (earlier calls : List (WorkspaceCall D)) (id : ImageId) (image : LibraryImage D δ)
    (hopened : (Workspace.serveAll deserialize ⟨files, []⟩ earlier).image? id = some image) :
    let start := Workspace.serveAll deserialize ⟨files, []⟩ earlier
    ∃ (header : Answer MetadataHeader) (descriptor : Answer δ),
      (∀ d, descriptor = .ok d → ∃ h, header = .ok h) ∧
      (∀ e, header = .error e → descriptor = .error e) ∧
      (∀ ws, (ws, .moduleName id) ∈ start.served deserialize calls →
        (ws.moduleName id).1 = header.map (·.moduleName)) ∧
      (∀ ws, (ws, .moduleDescriptor id) ∈ start.served deserialize calls →
        (ws.moduleDescriptor deserialize id).1 = .answered descriptor ∧
        ∀ inner ∈ ws.during deserialize id,
          (inner.progress id).headerReads = 1 ∧
          inner.moduleName id = (header.map (·.moduleName), inner) ∧
          ∀ depth, Workspace.descriptorWithin deserialize depth id inner =
            (.answered (.error (.cycle image.libraryName)), inner)) ∧
      ∃ last, (start.serveAll deserialize calls).image? id = some last ∧
        last.headerReads ≤ 1 ∧ last.deserializations ≤ 1 ∧
        (∀ answer, last.header.stored = some answer → answer = header) ∧
        (∀ answer, last.descriptor.stored = some answer → answer = descriptor) ∧
        (∀ e, header = .error e → last.deserializations = 0) := by
  intro start
  have hstart : start.AtRest := (Workspace.serveAll_continues hcalm earlier (Workspace.atRest_empty files)).1
  obtain ⟨hend, hcontinues⟩ := Workspace.serveAll_continues hcalm calls hstart
  obtain ⟨last, hlast, honward⟩ := hcontinues id image hopened
  have hc := (hend id last hlast).1
  -- What is in the cells at the end of the run is what every call was told.
  obtain ⟨header, descriptor, hheader, hdescriptor, herror⟩ := Workspace.consistent_answers hc
  refine ⟨header, descriptor, ?_, fun e he => (herror e he).1, ?_, ?_, last, hlast, ?_, hc.deserializations_le,
    hheader, hdescriptor, fun e he => (herror e he).2⟩
  · intro d hd
    cases header with
    | ok h => exact ⟨h, rfl⟩
    | error e => simp [(herror e rfl).1] at hd
  · intro ws hmem
    obtain ⟨hrest, hbefore, hafter⟩ := Workspace.continues_of_mem_served hcalm hstart hmem
    obtain ⟨image', himage', -⟩ := hbefore id image hopened
    rw [← hheader _ (Workspace.header_of_moduleName hrest himage' hafter hlast)]
    rfl
  · intro ws hmem
    obtain ⟨hrest, hbefore, hafter⟩ := Workspace.continues_of_mem_served hcalm hstart hmem
    obtain ⟨image', himage', honward'⟩ := hbefore id image hopened
    obtain ⟨answer, hanswer, hstored, hstored'⟩ :=
      Workspace.descriptor_of_moduleDescriptor hcalm hrest himage' hafter hlast
    have hname : image'.libraryName = image.libraryName := congrArg Path.text honward'.path_eq
    refine ⟨hdescriptor answer hstored' ▸ hanswer, fun inner hinner => ?_⟩
    rw [← hheader _ hstored, ← hname]
    exact Workspace.answers_of_mem_during hrest.sound himage' hinner
  · rw [hc.headerReads_eq]
    cases last.header.stored <;> simp

deriving instance DecidableEq for Outcome

/-- A deserializer that asks for what it is making, and a library that is gone after the first call. -/
theorem image_keeps_answers_reentry :
    let deserialize : Unit → Deserialization.Deserializer String := fun _ request =>
      .descriptor ⟨0⟩ fun
        | .ok text => .finish (.ok text)
        | .error e => .finish (.ok (request.moduleName ++ ": " ++ e.message))
    let library : ContainerContent := { moduleName := "m", abiVersion := .current }
    let files := (FileTree.ofFiles [(Utf8.encode "a.tlb", library.encode)]).toFileSystem
    let start := Workspace.serveAll deserialize ⟨files, []⟩ [.openImage (.ofText "/a.tlb") {} ()]
    let calls := [.moduleDescriptor ⟨0⟩, .files (FileTree.ofFiles []).toFileSystem, .moduleDescriptor ⟨0⟩]
    (start.during deserialize ⟨0⟩).length = 1 ∧
      ∀ ws, (ws, .moduleDescriptor ⟨0⟩) ∈ start.served deserialize calls →
        (ws.moduleDescriptor deserialize ⟨0⟩).1 =
          .answered (.ok "m: cyclic materialization of library '/a.tlb'") := by
  intro deserialize library files start calls
  have hcalm : ∀ d request, (deserialize d request).NeverPanics := by
    intro _ request answer
    cases answer <;> trivial
  have hfirst : (start.moduleDescriptor deserialize ⟨0⟩).1 =
      .answered (.ok "m: cyclic materialization of library '/a.tlb'") := by
    decide +kernel
  obtain ⟨header, descriptor, -, -, -, hdescriptor, -⟩ :=
    image_keeps_answers deserialize hcalm files [.openImage (.ofText "/a.tlb") {} ()] calls ⟨0⟩ _ rfl
  have heq := hfirst.symm.trans (hdescriptor start List.mem_cons_self).1
  refine ⟨by decide +kernel, fun ws hmem => ?_⟩
  rw [heq]
  exact (hdescriptor ws hmem).1

end TernBackend
