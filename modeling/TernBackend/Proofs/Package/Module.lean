import TernBackend.Proofs.Package.Deserialization

/-!
# Modules exist as a whole or not at all

The deserializer of package listings is a function of what its fragment source answers. It asks for nothing
when the table of contents is no listing. Otherwise it asks for the listed names in order, up to the first one
that cannot be loaded, whose error it gives on as it is. If there is none, it makes a module of all of them: one
entry for each name, however often the name is listed (`deserialize_all_or_nothing`).
-/

namespace TernBackend.PackageListing

open Deserialization

variable {δ : Type} {source : String → Answer Bytes} {request : DeserializeRequest}

/-- Without a listing no fragment is asked for. -/
theorem runOn_deserialize_of_fault {fault : Wire.Fault} (h : decode request.tableOfContents.bytes = .error fault) :
    runOn source (deserialize request : Deserialization δ ModuleDescriptor) =
      (.answered (.error (.corruptContainer request.library (.listing fault))), []) := by
  rw [deserialize, h]
  rfl

theorem runOn_deserialize_of_error {listing : PackageListing}
    (hlisting : decode request.tableOfContents.bytes = .ok listing) {before after : List String} {name : String}
    (hsplit : listing.packages = before ++ name :: after)
    (hbefore : ∀ earlier ∈ before, ∃ bytes, source earlier = .ok bytes) {e : LibraryError}
    (hname : source name = .error e) :
    runOn source (deserialize request : Deserialization δ ModuleDescriptor) =
      (.answered (.error e), before ++ [name]) := by
  have hload := runOn_loadAll_of_error (δ := δ) source after hbefore hname
  rw [← hsplit] at hload
  rw [deserialize, hlisting]
  exact runOn_map source _ hload

/-- **A module is materialized as a whole or not at all.** From a table of contents that is no package listing
comes a corrupt container at the path of the library, and no fragment is asked for. From a listing in which some
name cannot be loaded comes the error of the first such name, unchanged; the names up to that one are asked for
in their order, and no others. From any other listing comes a module of the given name; all names are asked for
in their order, and the packages of the module are just the listed names, each once, with the name itself and the
bytes that the source gave for it. -/
theorem deserialize_all_or_nothing (request : DeserializeRequest) (source : String → Answer Bytes) :
    (∀ fault, decode request.tableOfContents.bytes = .error fault →
      runOn source (deserialize request : Deserialization δ ModuleDescriptor) =
        (.answered (.error (.corruptContainer request.library (.listing fault))), [])) ∧
    (∀ listing, decode request.tableOfContents.bytes = .ok listing →
      (∀ before name after e, listing.packages = before ++ name :: after →
        (∀ earlier ∈ before, ∃ bytes, source earlier = .ok bytes) → source name = .error e →
        runOn source (deserialize request : Deserialization δ ModuleDescriptor) =
          (.answered (.error e), before ++ [name])) ∧
      ((∀ name ∈ listing.packages, ∃ bytes, source name = .ok bytes) → ∃ m : ModuleDescriptor,
        runOn source (deserialize request : Deserialization δ ModuleDescriptor) =
          (.answered (.ok m), listing.packages) ∧
        m.name = request.moduleName ∧ m.packages.keys.Pairwise (· < ·) ∧
        (∀ name, name ∈ m.packages.keys ↔ name ∈ listing.packages) ∧
        (∀ name fragment, m.package? name = some fragment ↔
          name ∈ listing.packages ∧ fragment.name = name ∧ source name = .ok fragment.bytes))) := by
  refine ⟨fun fault => runOn_deserialize_of_fault, fun listing hlisting => ⟨?_, fun hall => ?_⟩⟩
  · intro before name after e hsplit hbefore hname
    exact runOn_deserialize_of_error hlisting hsplit hbefore hname
  · choose! bytes hbytes using hall
    refine ⟨_, runOn_deserialize hlisting hbytes, rfl, ?_, ModuleDescriptor.mem_keys_ofLoaded _ _ _,
      fun name fragment => ?_⟩
    · exact (Table.pairwise_keys _).imp compareOfLessAndEq_eq_lt.1
    · rw [ModuleDescriptor.package?_ofLoaded]
      constructor
      · intro hsome
        split at hsome
        next hmem =>
          cases hsome
          exact ⟨hmem, rfl, hbytes name hmem⟩
        next => cases hsome
      · rintro ⟨hmem, rfl, hsource⟩
        rw [hbytes _ hmem, Except.ok.injEq] at hsource
        rw [if_pos hmem, hsource]

/-- A listing that names a package twice, with all of its fragments and without one of them. -/
theorem deserialize_all_or_nothing_repeated :
    let listing : PackageListing := ⟨["b", "a", "b", "c"]⟩
    let request : DeserializeRequest := ⟨.ofText "lib", "m", .ofBytes listing.encode, {}⟩
    let missing : LibraryError := .fragmentNotFound (.ofText "lib") "a"
    let source : String → Answer Bytes := fun name => .ok (Utf8.encode name)
    let partly : String → Answer Bytes := fun name => if name = "b" then .ok [] else .error missing
    (∃ m : ModuleDescriptor, runOn source (deserialize request : Deserialization ModuleDescriptor ModuleDescriptor) =
        (.answered (.ok m), ["b", "a", "b", "c"]) ∧ m.package? "b" = some ⟨"b", [98]⟩ ∧ m.package? "d" = none) ∧
      runOn partly (deserialize request : Deserialization ModuleDescriptor ModuleDescriptor) =
        (.answered (.error missing), ["b", "a"]) := by
  intro listing request missing source partly
  have hlisting : decode request.tableOfContents.bytes = .ok listing := by
    have hread := decode_encode_of_fits (l := listing) (by refine ⟨?_, ?_⟩ <;> decide +kernel) []
    rwa [List.append_nil] at hread
  refine ⟨?_, ?_⟩
  · obtain ⟨-, hread⟩ := deserialize_all_or_nothing (δ := ModuleDescriptor) request source
    obtain ⟨m, hrun, -, -, hkeys, hpackage⟩ := (hread listing hlisting).2 fun name _ => ⟨_, rfl⟩
    refine ⟨m, hrun, (hpackage "b" ⟨"b", [98]⟩).2 ⟨by decide, rfl, by decide +kernel⟩, ?_⟩
    exact not_not.1 fun hsome => absurd ((hkeys "d").1 (Table.mem_keys_iff.2 hsome)) (by decide)
  · obtain ⟨-, hread⟩ := deserialize_all_or_nothing (δ := ModuleDescriptor) request partly
    exact (hread listing hlisting).1 ["b"] "a" ["b", "c"] missing rfl (by simp [partly]) (by simp [partly])

end TernBackend.PackageListing
