import TernBackend.Wire.Base64
import TernBackend.Wire.Utf8

/-!
# Tables of contents

A table of contents is bytes that mean something to the deserializer only. A container holds them in
base64; both forms are kept, and each determines the other.
-/

namespace TernBackend

structure TableOfContents where
  encoded : String
  bytes : Bytes
  deriving DecidableEq

namespace TableOfContents

/-- `TableOfContents::from_encoded`. -/
def ofEncoded (encoded : String) : Except Base64.Fault TableOfContents :=
  (Base64.decode (Utf8.encode encoded)).map fun bytes => ⟨encoded, bytes⟩

/-- `TableOfContents::from_bytes`. -/
def ofBytes (bytes : Bytes) : TableOfContents := ⟨Base64.text bytes, bytes⟩

end TableOfContents

end TernBackend
