import TernBackend.Library.Error

/-!
# The format of a container

A container is a preamble of 28 bytes, an index, and the payload.

The preamble holds the magic bytes, the version of the framing, two bytes that are not looked at, the
version of the encoding as three 32-bit numbers, and the length of the index. The index names the
module, gives the table of contents in base64, and lists the fragments with the places of their bytes
in the payload. Bytes after the fields of the index are not looked at; the payload starts where the
preamble says that the index ends.
-/

namespace TernBackend.Container

/-- `Prefix`. -/
structure Preamble where
  abiVersion : AbiVersion
  indexLength : UInt64
  deriving DecidableEq

namespace Preamble

def length : Nat := 28

def encode (p : Preamble) : Bytes :=
  magic ++ Wire.littleEndian 2 framingVersion.toNat ++ [0, 0] ++
    Wire.littleEndian 4 p.abiVersion.major.toNat ++ Wire.littleEndian 4 p.abiVersion.minor.toNat ++
    Wire.littleEndian 4 p.abiVersion.patch.toNat ++ Wire.littleEndian 8 p.indexLength.toNat

/-- The number in the bytes of `front` from `start` on. -/
def word (front : Bytes) (start width : Nat) : Nat := Wire.value ((front.drop start).take width)

/-- `Prefix::decode`, of 28 bytes. -/
def ofFront (front : Bytes) : Except Corruption Preamble :=
  if front.take 4 ≠ magic then .error (.badMagic (front.take 4))
  else if UInt16.ofNat (word front 4 2) ≠ framingVersion then
    .error (.framing (.ofNat (word front 4 2)))
  else
    .ok ⟨⟨.ofNat (word front 8 4), .ofNat (word front 12 4), .ofNat (word front 16 4)⟩,
      .ofNat (word front 20 8)⟩

/-- The preamble of a file, and the bytes after it. -/
def decode (bs : Bytes) : Except Corruption (Preamble × Bytes) :=
  match Wire.cut? length bs with
  | none => .error .endOfFile
  | some (front, rest) => (ofFront front).map fun p => (p, rest)

end Preamble

/-- `FragmentEntry`. The name of a fragment and the place of its bytes in the payload. -/
structure Entry where
  name : String
  offset : UInt64
  length : UInt64
  deriving DecidableEq

namespace Entry

def encode (e : Entry) : Bytes :=
  Wire.encodeText e.name ++ Wire.encodeWord e.offset ++ Wire.encodeWord e.length

def decode : Wire.Decoder Entry := fun bs => do
  let (name, bs) ← Wire.decodeText bs
  let (offset, bs) ← Wire.decodeWord bs
  let (length, bs) ← Wire.decodeWord bs
  return (⟨name, offset, length⟩, bs)

end Entry

/-- `ContainerIndex`. -/
structure Index where
  moduleName : String
  /-- The table of contents in base64. -/
  tableOfContents : String
  fragments : List Entry
  deriving DecidableEq

namespace Index

def encode (index : Index) : Bytes :=
  Wire.encodeText index.moduleName ++ Wire.encodeText index.tableOfContents ++
    Wire.encodeList Entry.encode index.fragments

def decode : Wire.Decoder Index := fun bs => do
  let (moduleName, bs) ← Wire.decodeText bs
  let (tableOfContents, bs) ← Wire.decodeText bs
  let (fragments, bs) ← Wire.decodeList Entry.decode bs
  return (⟨moduleName, tableOfContents, fragments⟩, bs)

/-- `ContainerIndex::fragment`: the first entry of a name. -/
def entry? (index : Index) (name : String) : Option Entry := index.fragments.find? (·.name == name)

def names (index : Index) : List String := index.fragments.map (·.name)

end Index

end TernBackend.Container
