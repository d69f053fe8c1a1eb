import TernBackend.Metadata.Sink
import TernBackend.Proofs.Except

/-!
# What sinks object to

A sink turns nodes down for reasons of its own (`OwnReasons`): that a type has no descriptor is found out before the
sink is asked. The store objects to names, texts and references only (`MetadataStore.otherObjection_check`), and a
refusing sink objects by itself or leaves it to the one behind.
-/

namespace TernBackend

/-- A sink that turns nodes down for reasons of its own. It knows no types, so never for want of a descriptor. -/
class OwnReasons (σ : Type) [MetadataSink σ] : Prop where
  create_ne (s : σ) (node : MetadataNode) (text : String) :
    (MetadataSink.create s node).1 ≠ .error (.notYetImplemented text)

namespace MetadataStore

/-- A check that objects, if it does, to something else than the lack of a descriptor. -/
def OtherObjection (check : Except DebugError Unit) : Prop := ∀ text, check ≠ .error (.notYetImplemented text)

theorem OtherObjection.bind {check : Except DebugError Unit} {next : Unit → Except DebugError Unit}
    (h : OtherObjection check) (hnext : OtherObjection (next ())) : OtherObjection (check >>= next) := by
  intro text herror
  rcases bind_eq_error_iff.1 herror with hcheck | ⟨⟨⟩, -, hrest⟩
  · exact h text hcheck
  · exact hnext text hrest

theorem otherObjection_pure : OtherObjection (pure ()) := nofun

theorem otherObjection_checkText (what text : String) : OtherObjection (checkText what text) := by
  unfold checkText
  split <;> exact nofun

theorem otherObjection_checkName (what name : String) : OtherObjection (checkName what name) := by
  unfold checkName
  split
  · exact nofun
  · exact otherObjection_checkText what name

variable (s : MetadataStore)

theorem otherObjection_checkNode (what : String) (id : NodeId) : OtherObjection (s.checkNode what id) := by
  unfold checkNode
  split <;> exact nofun

theorem otherObjection_checkCompileUnit : OtherObjection s.checkCompileUnit := by
  unfold checkCompileUnit
  split <;> exact nofun

theorem otherObjection_checkOperands (operands : List MetadataValue) :
    OtherObjection (operands.forM s.checkOperand) := by
  induction operands with
  | nil => exact otherObjection_pure
  | cons operand operands ih =>
    refine OtherObjection.bind ?_ ih
    cases operand with
    | int => exact otherObjection_pure
    | string text => exact otherObjection_checkText _ text
    | node id => exact s.otherObjection_checkNode _ id

theorem otherObjection_check (node : MetadataNode) : OtherObjection (s.check node) := by
  have hunit := s.otherObjection_checkCompileUnit
  cases node with
  | module name => exact otherObjection_checkName _ name
  | compileUnit =>
    exact .bind (otherObjection_checkName _ _) (.bind (otherObjection_checkText _ _)
      (.bind (otherObjection_checkText _ _) (otherObjection_checkText _ _)))
  | basicType name => exact .bind hunit (otherObjection_checkName _ name)
  | pointerType pointee _ _ name =>
    refine .bind hunit (.bind (otherObjection_checkName _ name) ?_)
    cases pointee with
    | none => exact otherObjection_pure
    | some id => exact s.otherObjection_checkNode _ id
  | subprogram scope name linkageName =>
    refine .bind hunit (.bind (otherObjection_checkName _ name) ?_)
    cases linkageName with
    | none => exact s.otherObjection_checkNode _ scope
    | some linkageName => exact .bind (otherObjection_checkName _ linkageName) (s.otherObjection_checkNode _ scope)
  | location _ _ scope => exact .bind hunit (s.otherObjection_checkNode _ scope)
  | tuple operands => exact s.otherObjection_checkOperands operands

instance : OwnReasons MetadataStore where
  create_ne s node text h := by
    change (s.create node).1 = _ at h
    unfold create at h
    split at h
    next e hcheck =>
      cases h
      exact s.otherObjection_check node text hcheck
    next => cases h

end MetadataStore

instance {σ : Type} [MetadataSink σ] [OwnReasons σ] : OwnReasons (Refusing σ) where
  create_ne s node text h := by
    change (s.pass node.method (MetadataSink.create · node)).1 = _ at h
    unfold Refusing.pass at h
    split at h
    · cases h
    · exact OwnReasons.create_ne s.inner node text h

end TernBackend
