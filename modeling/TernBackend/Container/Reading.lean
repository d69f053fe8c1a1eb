import TernBackend.Container.Format
import TernBackend.Package.TableOfContents

/-!
# Reading containers

Questions about the bytes of a file that is taken for a container. Each starts from the preamble. The
header is refused under any other version before the index is looked at; the index must fit into the
file before it is decoded; a fragment must end within the file before its bytes are given. Sums of
lengths and offsets are taken in 64 bits and refused when they do not fit.
-/

namespace TernBackend

/-- `MetadataHeader`. What a library tells about itself before any fragment is read. -/
structure MetadataHeader where
  moduleName : String
  tableOfContents : TableOfContents
  deriving DecidableEq

/-- `checked_add`. -/
def checkedAdd (a b : UInt64) : Option UInt64 :=
  if a.toNat + b.toNat < UInt64.size then some (a + b) else none

namespace Container

/-- `ContainerReader::read_prefix`: the preamble of a file, and the bytes after it. -/
def preamble (path : Path) (file : Bytes) : Except LibraryError (Preamble × Bytes) :=
  (Preamble.decode file).mapError (.corruptContainer path)

/-- `ContainerReader::read_index`. -/
def index (path : Path) (p : Preamble) (rest : Bytes) : Except LibraryError Index :=
  if rest.length < p.indexLength.toNat then
    .error (.corruptContainer path (.indexTooLong p.indexLength rest.length))
  else
    match Index.decode (rest.take p.indexLength.toNat) with
    | .ok (index, _) => .ok index
    | .error fault => .error (.corruptContainer path (.index fault))

/-- `ContainerReader::abi_version`. -/
def abiVersion (path : Path) (file : Bytes) : Except LibraryError AbiVersion := do
  let (p, _) ← preamble path file
  return p.abiVersion

/-- `ContainerReader::load_header`: the header of a file, read under a version. -/
def header (path : Path) (file : Bytes) (version : AbiVersion) : Except LibraryError MetadataHeader := do
  let (p, rest) ← preamble path file
  if p.abiVersion ≠ version then throw (.versionMismatch path version p.abiVersion)
  let index ← index path p rest
  match TableOfContents.ofEncoded index.tableOfContents with
  | .ok tableOfContents => return ⟨index.moduleName, tableOfContents⟩
  | .error fault => throw (.corruptContainer path (.tableOfContents fault))

/-- `ContainerReader::fragment_names`, in the order of the file. -/
def fragmentNames (path : Path) (file : Bytes) : Except LibraryError (List String) := do
  let (p, rest) ← preamble path file
  let index ← index path p rest
  return index.names

/-- Where the bytes of an entry start and end in a file, if that can be told in 64 bits. -/
def range? (p : Preamble) (e : Entry) : Option (UInt64 × UInt64) := do
  let start ← checkedAdd (.ofNat Preamble.length + p.indexLength) e.offset
  let stop ← checkedAdd start e.length
  return (start, stop)

/-- `ContainerReader::load_fragment`. -/
def fragment (path : Path) (file : Bytes) (name : String) : Except LibraryError Bytes := do
  let (p, rest) ← preamble path file
  let index ← index path p rest
  match index.entry? name with
  | none => throw (.fragmentNotFound path name)
  | some e =>
    let outside := .corruptContainer path (.fragmentOutside name e.offset e.length)
    match range? p e with
    | none => throw outside
    | some (start, stop) =>
      if stop.toNat ≤ file.length then return (file.drop start.toNat).take (stop - start).toNat
      else throw outside

end Container

end TernBackend
