import TernBackend.Package.Deserialization
import TernBackend.Package.Listing
import TernBackend.Table

/-!
# Modules from package listings

The deserializer for tables of contents that are package listings. It loads every listed fragment, in
the order of the listing, and collects them under their names. The module exists as a whole or not at
all: a listing that cannot be decoded is a corrupt container, and the first fragment that cannot be
loaded decides the error.
-/

namespace TernBackend

structure PackageFragment where
  name : String
  bytes : Bytes
  deriving DecidableEq

structure ModuleDescriptor where
  name : String
  packages : Table String PackageFragment

namespace ModuleDescriptor

/-- `ModuleDescriptor::package`. -/
def package? (m : ModuleDescriptor) (name : String) : Option PackageFragment := m.packages.get? name

/-- The module of the given name with the fragments that were loaded. -/
def ofLoaded (name : String) (loaded : List (String × Bytes)) : ModuleDescriptor :=
  ⟨name, .ofList (loaded.map fun (fragment, bytes) => (fragment, ⟨fragment, bytes⟩))⟩

end ModuleDescriptor

/-- `PackageIndexDeserializer`: materializes a module whose table of contents is a package listing. -/
def PackageListing.deserialize {δ : Type} (request : DeserializeRequest) :
    Deserialization δ ModuleDescriptor :=
  match PackageListing.decode request.tableOfContents.bytes with
  | .error fault => .finish (.error (.corruptContainer request.library (.listing fault)))
  | .ok listing =>
    (Deserialization.loadAll listing.packages).map (ModuleDescriptor.ofLoaded request.moduleName)

end TernBackend
