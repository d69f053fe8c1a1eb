import TernBackend.Container.Format
import TernBackend.Package.Listing
import TernBackend.Package.TableOfContents
import TernBackend.Table

/-!
# Writing containers

The content of a container is a module name, a version, fragments under their names, and possibly a
table of contents of its own; otherwise the table of contents lists the names of the fragments. The
fragments are written in the order of their names, one after the other without gaps.
-/

namespace TernBackend

/-- `ContainerWriter`. What a container is made of. -/
structure ContainerContent where
  moduleName : String
  abiVersion : AbiVersion
  tableOfContents : Option Bytes := none
  fragments : Table String Bytes := .empty

namespace ContainerContent

/-- `ContainerWriter::add_fragment`; an earlier fragment of that name is gone. -/
def addFragment (c : ContainerContent) (name : String) (bytes : Bytes) : ContainerContent :=
  { c with fragments := c.fragments.insert name bytes }

/-- `ContainerWriter::with_table_of_contents`. -/
def withTableOfContents (c : ContainerContent) (bytes : Bytes) : ContainerContent :=
  { c with tableOfContents := some bytes }

def tableOfContentsBytes (c : ContainerContent) : Bytes :=
  c.tableOfContents.getD (PackageListing.encode ⟨c.fragments.keys⟩)

/-- The entries of fragments whose bytes start at `offset` in the payload. -/
def entriesFrom (offset : UInt64) : List (String × Bytes) → List Container.Entry
  | [] => []
  | (name, bytes) :: later =>
    let length : UInt64 := .ofNat bytes.length
    ⟨name, offset, length⟩ :: entriesFrom (offset + length) later

def index (c : ContainerContent) : Container.Index where
  moduleName := c.moduleName
  tableOfContents := (TableOfContents.ofBytes c.tableOfContentsBytes).encoded
  fragments := entriesFrom 0 c.fragments.entries

def preamble (c : ContainerContent) : Container.Preamble where
  abiVersion := c.abiVersion
  indexLength := .ofNat c.index.encode.length

/-- The bytes of the fragments. -/
def payload (c : ContainerContent) : Bytes := c.fragments.values.flatten

/-- `ContainerWriter::to_bytes`, of what can be held in memory: then nothing in it is refused. -/
def encode (c : ContainerContent) : Bytes := c.preamble.encode ++ c.index.encode ++ c.payload

end ContainerContent

end TernBackend
