import TernBackend.Wire.Utf8

/-!
# Fields

A record is written as its fields one after the other: a number as eight bytes, a text as its length
in bytes and its UTF-8 form, a list as its count and its elements. A decoder reads one field and
gives the bytes after it, whatever they are.
-/

namespace TernBackend.Wire

/-- Why a field could not be read. -/
inductive Fault where
  | endOfInput
  | textTooLong
  | notText (fault : Utf8.Fault)
  deriving DecidableEq

def Fault.message : Fault → String
  | endOfInput => "io error: unexpected end of file"
  | textTooLong => "io error: "
  | notText fault => "string is not valid utf8: " ++ fault.message

/-- Reads a value and gives the bytes after it. -/
abbrev Decoder (α : Type) : Type := Bytes → Except Fault (α × Bytes)

/-! ## Writing -/

def encodeWord (n : UInt64) : Bytes := littleEndian 8 n.toNat

def encodeCount (n : Nat) : Bytes := encodeWord (.ofNat n)

def encodeText (s : String) : Bytes := encodeCount (Utf8.encode s).length ++ Utf8.encode s

/-- The field of a list. -/
def encodeList {α : Type} (encode : α → Bytes) (as : List α) : Bytes :=
  encodeCount as.length ++ as.flatMap encode

/-! ## Reading -/

def decodeWord : Decoder UInt64 := fun bs =>
  match cut? 8 bs with
  | some (front, rest) => .ok (.ofNat (value front), rest)
  | none => .error .endOfInput

def decodeText : Decoder String := fun bs => do
  let (length, bs) ← decodeWord bs
  match cut? length.toNat bs with
  | none => throw .textTooLong
  | some (front, rest) =>
    match Utf8.decode front with
    | .ok s => return (s, rest)
    | .error fault => throw (.notText fault)

def decodeTimes {α : Type} (decode : Decoder α) : Nat → Decoder (List α)
  | 0, bs => .ok ([], bs)
  | n + 1, bs => do
    let (a, bs) ← decode bs
    let (as, bs) ← decodeTimes decode n bs
    return (a :: as, bs)

def decodeList {α : Type} (decode : Decoder α) : Decoder (List α) := fun bs => do
  let (count, bs) ← decodeWord bs
  decodeTimes decode count.toNat bs

end TernBackend.Wire
