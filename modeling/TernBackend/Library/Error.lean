import TernBackend.Abi
import TernBackend.Path
import TernBackend.Wire.Base64
import TernBackend.Wire.Field

/-!
# Errors of libraries

What can go wrong while a library is found, read and materialized. An error holds all it has to say,
so that it can be stored and given again to every later caller.
-/

namespace TernBackend

/-- Why the bytes of a file are no container, or not the container they claim to be. -/
inductive Corruption where
  | endOfFile
  | badMagic (found : Bytes)
  | framing (version : UInt16)
  | indexTooLong (claimed : UInt64) (available : Nat)
  | index (fault : Wire.Fault)
  | listing (fault : Wire.Fault)
  | tableOfContents (fault : Base64.Fault)
  | fragmentOutside (name : String) (offset length : UInt64)
  /-- A reason given by a deserializer of the caller's own. -/
  | other (reason : String)
  deriving DecidableEq

def magic : Bytes := [0x54, 0x4E, 0x4C, 0x42]

/-- The version of the container's framing. -/
def framingVersion : UInt16 := 1

def hexByte (b : UInt8) : String :=
  String.ofList [Nat.digitChar (b.toNat / 16), Nat.digitChar (b.toNat % 16)]

/-- Bytes in hexadecimal digits, between brackets. -/
def hexBytes (bs : Bytes) : String := "[" ++ ", ".intercalate (bs.map hexByte) ++ "]"

def Corruption.message : Corruption → String
  | endOfFile => "unexpected end of file"
  | badMagic found => "bad magic " ++ hexBytes found ++ ", expected " ++ hexBytes magic
  | framing version =>
    "unsupported container framing version " ++ toString version.toNat ++ " (expected " ++
      toString framingVersion.toNat ++ ")"
  | indexTooLong claimed available =>
    "index claims " ++ toString claimed.toNat ++ " bytes but only " ++ toString available ++
      " follow the prefix"
  | index fault => "failed to decode container index: " ++ fault.message
  | listing fault => "failed to decode package listing: " ++ fault.message
  | tableOfContents fault => "table of contents is not base64: " ++ fault.message
  | fragmentOutside name offset length =>
    "fragment '" ++ name ++ "' spans " ++ toString offset.toNat ++ "+" ++ toString length.toNat ++
      " bytes past the end of the payload"
  | other reason => reason

/-- Why a path cannot be followed, read or written. -/
inductive FileFault where
  | notFound
  | notADirectory
  | isADirectory
  | nameTooLong
  | nulInPath
  /-- Any other reason, such as a missing permission or links that lead in a circle. -/
  | other (reason : String)
  deriving DecidableEq

def FileFault.message : FileFault → String
  | notFound => "No such file or directory (os error 2)"
  | notADirectory => "Not a directory (os error 20)"
  | isADirectory => "Is a directory (os error 21)"
  | nameTooLong => "File name too long (os error 36)"
  | nulInPath => "file name contained an unexpected NUL byte"
  | other reason => reason

/-- `LibraryError`. Why a library could not be opened, read or materialized. -/
inductive LibraryError where
  | pathNotFound (path : Path)
  /-- The container was written under another version. -/
  | versionMismatch (path : Path) (expected found : AbiVersion)
  | corruptContainer (path : Path) (corruption : Corruption)
  | fragmentNotFound (path : Path) (name : String)
  /-- The file is there but cannot be read. -/
  | io (path : Path) (fault : FileFault)
  /-- A library was asked for what it is being asked for already. -/
  | cycle (library : String)
  | encode (module message : String)
  deriving DecidableEq

namespace LibraryError

def message : LibraryError → String
  | pathNotFound path => "library '" ++ path.text ++ "' not found"
  | versionMismatch path expected found =>
    "library '" ++ path.text ++ "' was written for ABI version " ++ found.text ++
      ", but this session reads ABI version " ++ expected.text
  | corruptContainer path corruption =>
    "corrupt library container '" ++ path.text ++ "': " ++ corruption.message
  | fragmentNotFound path name =>
    "package fragment '" ++ name ++ "' not found in library '" ++ path.text ++ "'"
  | io path fault => "I/O error reading library '" ++ path.text ++ "': " ++ fault.message
  | cycle library => "cyclic materialization of library '" ++ library ++ "'"
  | encode module message =>
    "failed to encode library container for module '" ++ module ++ "': " ++ message

/-- `LibraryError::from_io`. A path that leads nowhere is a library that was not found; any other
fault is one of reading. -/
def ofFault (path : Path) : FileFault → LibraryError
  | .notFound => .pathNotFound path
  | fault => .io path fault

end LibraryError

end TernBackend
