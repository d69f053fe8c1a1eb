import TernBackend.Package.Module
import TernBackend.Proofs.Package.Listing
import TernBackend.Proofs.Table

/-!
# What deserializations do

A deserialization may be known not to panic (`Deserialization.NeverPanics`), or even to ask for nothing but
fragments (`Deserialization.OnlyFragments`), so that it is a function of these (`Deserialization.runOn`). The
deserializer of package listings is of the second kind. From a listing whose fragments can all be loaded it
makes the module of these fragments (`PackageListing.runOn_deserialize`).
-/

namespace TernBackend

namespace Deserialization

variable {δ α β : Type}

/-- Whatever it is answered, the deserialization does not panic. -/
def NeverPanics : Deserialization δ α → Prop
  | .finish _ => True
  | .panic _ => False
  | .fragment _ next => ∀ answer, (next answer).NeverPanics
  | .moduleName _ next => ∀ answer, (next answer).NeverPanics
  | .descriptor _ next => ∀ answer, (next answer).NeverPanics
  | .progress _ next => ∀ answer, (next answer).NeverPanics

/-- The deserialization asks for fragments only, and does not panic. -/
def OnlyFragments : Deserialization δ α → Prop
  | .finish _ => True
  | .fragment _ next => ∀ answer, (next answer).OnlyFragments
  | _ => False

theorem OnlyFragments.neverPanics : ∀ {d : Deserialization δ α}, d.OnlyFragments → d.NeverPanics
  | .finish _, _ => trivial
  | .fragment _ _, h => fun answer => (h answer).neverPanics

theorem OnlyFragments.andThen {next : Answer α → Deserialization δ β}
    (hnext : ∀ answer, (next answer).OnlyFragments) :
    ∀ {d : Deserialization δ α}, d.OnlyFragments → (d.andThen next).OnlyFragments
  | .finish answer, _ => hnext answer
  | .fragment _ _, h => fun answer => OnlyFragments.andThen hnext (h answer)

theorem OnlyFragments.map (f : α → β) {d : Deserialization δ α} (h : d.OnlyFragments) :
    (d.map f).OnlyFragments := by
  unfold Deserialization.map
  refine OnlyFragments.andThen (fun answer => ?_) h
  trivial

theorem onlyFragments_loadAll (names : List String) :
    (loadAll names : Deserialization δ (List (String × Bytes))).OnlyFragments := by
  induction names with
  | nil => trivial
  | cons name names ih =>
    intro answer
    cases answer with
    | error e => trivial
    | ok bytes => exact ih.map _

variable (source : String → Answer Bytes)

/-- A deserialization that is followed by another ends with the other, and asks for its fragments first. -/
theorem runOn_andThen (next : Answer α → Deserialization δ β) (d : Deserialization δ α) :
    runOn source (d.andThen next) =
      match runOn source d with
      | (.answered answer, names) =>
        ((runOn source (next answer)).1, names ++ (runOn source (next answer)).2)
      | (.panicked message, names) => (.panicked message, names) := by
  induction d with
  | finish answer => rfl
  | panic message => rfl
  | fragment name rest ih =>
    rw [Deserialization.andThen, runOn, runOn, ih]
    rcases runOn source (rest (source name)) with ⟨answer | message, names⟩ <;> rfl
  | moduleName image rest ih => exact ih _
  | descriptor image rest ih => exact ih _
  | progress image rest ih => exact ih _

theorem runOn_map {d : Deserialization δ α} {answer : Answer α} {names : List String} (f : α → β)
    (h : runOn source d = (.answered answer, names)) : runOn source (d.map f) = (.answered (answer.map f), names) := by
  rw [Deserialization.map, runOn_andThen, h]
  simp [runOn]

/-- When every fragment can be loaded, all are, in order. -/
theorem runOn_loadAll {names : List String} {bytes : String → Bytes}
    (h : ∀ name ∈ names, source name = .ok (bytes name)) :
    runOn source (loadAll names : Deserialization δ (List (String × Bytes))) =
      (.answered (.ok (names.map fun name => (name, bytes name))), names) := by
  induction names with
  | nil => rfl
  | cons name names ih =>
    obtain ⟨hname, hnames⟩ := List.forall_mem_cons.1 h
    rw [loadAll, runOn, hname]
    simp only [runOn_map source _ (ih hnames)]
    simp [Except.map]

/-- The first fragment that cannot be loaded decides the error, and those after it are not asked for. -/
theorem runOn_loadAll_of_error {before : List String} {name : String} (after : List String) {e : LibraryError}
    (hbefore : ∀ earlier ∈ before, ∃ bytes, source earlier = .ok bytes) (hname : source name = .error e) :
    runOn source (loadAll (before ++ name :: after) : Deserialization δ (List (String × Bytes))) =
      (.answered (.error e), before ++ [name]) := by
  induction before with
  | nil =>
    rw [List.nil_append, loadAll, runOn, hname]
    rfl
  | cons earlier before ih =>
    obtain ⟨⟨bytes, hearlier⟩, hbefore⟩ := List.forall_mem_cons.1 hbefore
    rw [List.cons_append, loadAll, runOn, hearlier]
    simp only [runOn_map source _ (ih hbefore)]
    simp [Except.map]

end Deserialization

/-- The packages of a module are the fragments that were loaded, each under its name. -/
theorem ModuleDescriptor.package?_ofLoaded (moduleName : String) (names : List String) (bytes : String → Bytes)
    (name : String) :
    (ofLoaded moduleName (names.map fun name => (name, bytes name))).package? name =
      if name ∈ names then some ⟨name, bytes name⟩ else none := by
  rw [package?, ofLoaded, List.map_map]
  exact Table.get?_ofList_map names (fun name => PackageFragment.mk name (bytes name)) name

theorem ModuleDescriptor.mem_keys_ofLoaded (moduleName : String) (names : List String) (bytes : String → Bytes)
    (name : String) :
    name ∈ (ofLoaded moduleName (names.map fun name => (name, bytes name))).packages.keys ↔ name ∈ names := by
  have hpackage := package?_ofLoaded moduleName names bytes name
  rw [package?] at hpackage
  rw [Table.mem_keys_iff, hpackage]
  simp

namespace PackageListing

variable {δ : Type}

theorem onlyFragments_deserialize (request : DeserializeRequest) :
    (deserialize request : Deserialization δ ModuleDescriptor).OnlyFragments := by
  unfold deserialize
  split
  · trivial
  · exact (Deserialization.onlyFragments_loadAll _).map _

/-- A listing whose fragments can all be loaded gives the module of these fragments. -/
theorem runOn_deserialize {source : String → Answer Bytes} {request : DeserializeRequest}
    {listing : PackageListing} (hlisting : decode request.tableOfContents.bytes = .ok listing)
    {bytes : String → Bytes} (h : ∀ name ∈ listing.packages, source name = .ok (bytes name)) :
    Deserialization.runOn source (deserialize request : Deserialization δ ModuleDescriptor) =
      (.answered (.ok (.ofLoaded request.moduleName (listing.packages.map fun name => (name, bytes name)))),
        listing.packages) := by
  rw [deserialize, hlisting]
  exact Deserialization.runOn_map source _ (Deserialization.runOn_loadAll source h)

end PackageListing

end TernBackend
