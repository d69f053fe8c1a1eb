import TernBackend.Metadata.Store

/-!
# Sinks

A sink takes debug metadata: nodes, and operands of named groups. It can say where it stands and
can be taken back to where it stood. The store is a sink; so is a sink that passes everything on to
another one but turns down one call of its choice before the other sees it.
-/

namespace TernBackend

/-- `DebugMetadataSink`. What debug metadata can be emitted into. The seven methods that create a
node are one, with the node to be. -/
class MetadataSink (σ : Type) where
  create : σ → MetadataNode → Except DebugError NodeId × σ
  attach : σ → String → NodeId → Except DebugError Unit × σ
  mark : σ → Mark
  rollback : σ → Mark → σ

instance : MetadataSink MetadataStore where
  create := MetadataStore.create
  attach := MetadataStore.attach
  mark := MetadataStore.mark
  rollback := MetadataStore.rollback

/-- Which call is turned down: the one of the given number, from one, among those of a method. -/
structure Refusal where
  method : Method
  number : Nat
  deriving DecidableEq

/-- A sink in front of another one. -/
structure Refusing (σ : Type) where
  inner : σ
  refusal : Option Refusal
  /-- The number of calls, so far, of the method that the refusal names. -/
  calls : Nat := 0

namespace Refusing

variable {σ : Type}

/-- Whether the refusal, if there is one, names the method. -/
def watches (s : Refusing σ) (m : Method) : Bool := s.refusal.any (·.method == m)

/-- Whether the next call of a method is the one that is turned down. -/
def refusesNext (s : Refusing σ) (m : Method) : Bool :=
  s.refusal.any fun r => r.method == m && r.number == s.calls + 1

/-- The sink after a call of a method has been counted. -/
def count (s : Refusing σ) (m : Method) : Refusing σ :=
  if s.watches m then { s with calls := s.calls + 1 } else s

def refused (m : Method) : DebugError := .rejected m.text (.other "refused")

/-- Passes a call of a method on, unless it is the one to turn down. -/
def pass {α : Type} (s : Refusing σ) (m : Method) (call : σ → Except DebugError α × σ) :
    Except DebugError α × Refusing σ :=
  if s.refusesNext m then (.error (refused m), s.count m)
  else
    let (answer, inner) := call s.inner
    (answer, { s.count m with inner })

instance [MetadataSink σ] : MetadataSink (Refusing σ) where
  create s node := s.pass node.method (MetadataSink.create · node)
  attach s name id := s.pass .operand (MetadataSink.attach · name id)
  mark s := MetadataSink.mark s.inner
  rollback s m := { s with inner := MetadataSink.rollback s.inner m }

end Refusing

end TernBackend
