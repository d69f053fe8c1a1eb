import TernBackend.Flight.Cell
import TernBackend.Package.TableOfContents
import TernBackend.Session.Basic

/-!
# Deserializations

A deserializer turns the header of a library into a descriptor. It is given a request and pulls
whatever fragments it wants; it may also ask other images of the compilation, the one it works for
included. What it does is a tree: each node asks for something and goes on with the answer, and each
leaf is a descriptor, an error or a panic. So a deserializer can do nothing to an image but ask.
-/

namespace TernBackend

/-- An opened image, by the place at which it was opened. -/
structure ImageId where
  place : Nat
  deriving DecidableEq

/-- `DeserializeRequest`. What a deserializer is told about the library it is to materialize. It
gets the fragments by asking for them. -/
structure DeserializeRequest where
  library : Path
  moduleName : String
  tableOfContents : TableOfContents
  config : SessionConfig

structure ImageProgress where
  headerReads : Nat
  materialized : Bool
  deriving DecidableEq

/-- What a deserializer does to find an `α`, among images with descriptors `δ`. -/
inductive Deserialization (δ α : Type) where
  | finish (answer : Answer α)
  | panic (message : String)
  | fragment (name : String) (next : Answer Bytes → Deserialization δ α)
  | moduleName (image : ImageId) (next : Answer String → Deserialization δ α)
  | descriptor (image : ImageId) (next : Answer δ → Deserialization δ α)
  | progress (image : ImageId) (next : ImageProgress → Deserialization δ α)

namespace Deserialization

/-- `ModuleDeserializer::deserialize`. -/
abbrev Deserializer (δ : Type) : Type := DeserializeRequest → Deserialization δ δ

variable {δ α β : Type}

/-- Goes on with the answer of a deserialization; a panic is the end. -/
def andThen (next : Answer α → Deserialization δ β) : Deserialization δ α → Deserialization δ β
  | finish answer => next answer
  | panic message => .panic message
  | fragment name rest => .fragment name fun answer => (rest answer).andThen next
  | moduleName image rest => .moduleName image fun answer => (rest answer).andThen next
  | descriptor image rest => .descriptor image fun answer => (rest answer).andThen next
  | progress image rest => .progress image fun answer => (rest answer).andThen next

def map (f : α → β) (d : Deserialization δ α) : Deserialization δ β :=
  d.andThen fun answer => .finish (answer.map f)

/-- Loads the fragments of the given names, in order. The first that cannot be loaded decides the
error, and those after it are not asked for. -/
def loadAll : List String → Deserialization δ (List (String × Bytes))
  | [] => .finish (.ok [])
  | name :: names =>
    .fragment name fun
      | .error e => .finish (.error e)
      | .ok bytes => (loadAll names).map ((name, bytes) :: ·)

/-- Runs a deserialization that has only fragments to ask for, and notes the names it asked for. Any
other question is answered as where no image has been opened. -/
def runOn (source : String → Answer Bytes) : Deserialization δ α → Outcome α × List String
  | finish answer => (.answered answer, [])
  | panic message => (.panicked message, [])
  | fragment name next =>
    let (outcome, names) := runOn source (next (source name))
    (outcome, name :: names)
  | moduleName _ next => runOn source (next (.error (.pathNotFound ⟨[]⟩)))
  | descriptor _ next => runOn source (next (.error (.pathNotFound ⟨[]⟩)))
  | progress _ next => runOn source (next ⟨0, false⟩)

end Deserialization

end TernBackend
