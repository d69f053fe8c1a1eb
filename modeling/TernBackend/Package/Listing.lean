import TernBackend.Wire.Field

/-!
# Package listings

The list of the packages that a library contributes, as a table of contents may hold it. Bytes after
the listing are not looked at.
-/

namespace TernBackend

structure PackageListing where
  packages : List String
  deriving DecidableEq

namespace PackageListing

/-- `PackageListing::encode`. -/
def encode (l : PackageListing) : Bytes := Wire.encodeList Wire.encodeText l.packages

/-- `PackageListing::decode`: the listing at the start of bytes. -/
def decode (bs : Bytes) : Except Wire.Fault PackageListing :=
  (Wire.decodeList Wire.decodeText bs).map fun (packages, _) => ⟨packages⟩

end PackageListing

end TernBackend
