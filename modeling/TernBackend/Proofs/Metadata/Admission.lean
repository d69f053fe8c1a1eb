import Mathlib.Tactic.MkIffOfInductiveProp
import TernBackend.Metadata.Store

/-!
# What is admitted

A store admits a node just when all its references lead to nodes that are there, a compile unit is there
if the node belongs to one, and its names and other texts are such (`check_eq_ok_iff`). The order of the
checks only decides which objection is raised. An operand is admitted to a group just when its node is
there and the group has a name.
-/

namespace TernBackend

@[simp] def MetadataValue.reference? : MetadataValue → Option NodeId
  | node id => some id
  | int _ | string _ => none

@[simp] def MetadataValue.text? : MetadataValue → Option String
  | string text => some text
  | int _ | node _ => none

namespace MetadataNode

/-- The nodes that a node refers to. -/
@[simp] def references : MetadataNode → List NodeId
  | pointerType pointee .. => pointee.toList
  | subprogram scope .. | location _ _ scope => [scope]
  | tuple operands => operands.filterMap MetadataValue.reference?
  | module _ | compileUnit .. | basicType .. => []

/-- The names of the module, the file, the type or the subprogram, and the linkage name. -/
@[simp] def names : MetadataNode → List String
  | module name => [name]
  | compileUnit _ file .. => [file]
  | basicType name .. => [name]
  | pointerType _ _ _ name => [name]
  | subprogram _ name linkageName _ => name :: linkageName.toList
  | location .. | tuple _ => []

/-- The texts that may be empty. -/
@[simp] def texts : MetadataNode → List String
  | compileUnit _ _ directory producer _ flags _ => [directory, producer, flags]
  | tuple operands => operands.filterMap MetadataValue.text?
  | module _ | basicType .. | pointerType .. | subprogram .. | location .. => []

/-- Whether a node is part of what a compile unit holds. -/
@[simp] def belongsToUnit : MetadataNode → Bool
  | basicType .. | pointerType .. | subprogram .. | location .. => true
  | module _ | compileUnit .. | tuple _ => false

end MetadataNode

namespace MetadataStore

/-- A text without NUL. -/
def IsText (text : String) : Prop := '\x00' ∉ text.toList

def IsName (name : String) : Prop := name ≠ "" ∧ IsText name

instance (text : String) : Decidable (IsText text) := inferInstanceAs (Decidable ('\x00' ∉ text.toList))

instance (name : String) : Decidable (IsName name) := inferInstanceAs (Decidable (name ≠ "" ∧ IsText name))

/-- A node may come behind the nodes that are there. -/
@[mk_iff]
structure Admitted (nodes : List MetadataNode) (node : MetadataNode) : Prop where
  unit : node.belongsToUnit = true → ∃ unit ∈ nodes, unit.isCompileUnit = true
  names : ∀ name ∈ node.names, IsName name
  references_lt : ∀ id ∈ node.references, id.index.toNat < nodes.length
  texts : ∀ text ∈ node.texts, IsText text

/-! ## The single checks -/

@[simp] theorem bind_eq_ok_iff {a : Except DebugError Unit} {next : Unit → Except DebugError Unit} :
    (a >>= next) = .ok () ↔ a = .ok () ∧ next () = .ok () := by
  cases a with
  | error e => exact ⟨fun h => (nomatch h), fun h => (nomatch h.1)⟩
  | ok => exact (and_iff_right rfl).symm

theorem ite_eq_ok_iff {c : Prop} [Decidable c] {e : DebugError} :
    (if c then pure () else throw e : Except DebugError Unit) = .ok () ↔ c := by
  by_cases h : c
  · simp [h, pure, Except.pure]
  · simp [h, throw, throwThe, MonadExceptOf.throw]

@[simp] theorem checkText_eq_ok_iff {what text : String} : checkText what text = .ok () ↔ IsText text := by
  rw [checkText, ← ite_not, ite_eq_ok_iff, IsText]

@[simp] theorem checkName_eq_ok_iff {what name : String} : checkName what name = .ok () ↔ IsName name := by
  rw [checkName, IsName]
  by_cases h : name = ""
  · simp [h, throw, throwThe, MonadExceptOf.throw]
  · rw [if_neg h, checkText_eq_ok_iff, and_iff_right h]

@[simp] theorem checkNode_eq_ok_iff {s : MetadataStore} {what : String} {id : NodeId} :
    s.checkNode what id = .ok () ↔ id.index.toNat < s.nodes.length := ite_eq_ok_iff

@[simp] theorem checkCompileUnit_eq_ok_iff {s : MetadataStore} :
    s.checkCompileUnit = .ok () ↔ ∃ unit ∈ s.nodes, unit.isCompileUnit = true := by
  rw [checkCompileUnit, ite_eq_ok_iff, List.any_eq_true]

@[simp] theorem forM_checkOperand_eq_ok_iff {s : MetadataStore} {operands : List MetadataValue} :
    forM operands s.checkOperand = .ok () ↔
      (∀ id ∈ operands.filterMap MetadataValue.reference?, id.index.toNat < s.nodes.length) ∧
        ∀ text ∈ operands.filterMap MetadataValue.text?, IsText text := by
  induction operands with
  | nil => simp [pure, Except.pure]
  | cons operand operands ih =>
    rw [List.forM_cons, bind_eq_ok_iff, ih]
    cases operand with
    | int value => simp [checkOperand, pure, Except.pure]
    | string text =>
      simp only [checkOperand, checkText_eq_ok_iff, MetadataValue.reference?, MetadataValue.text?,
        List.filterMap_cons, List.forall_mem_cons]
      exact and_left_comm
    | node id =>
      simp only [checkOperand, checkNode_eq_ok_iff, MetadataValue.reference?, MetadataValue.text?,
        List.filterMap_cons, List.forall_mem_cons]
      exact and_assoc.symm

/-! ## The result -/

/-- **The checks let a node pass just when it is admitted.** -/
theorem check_eq_ok_iff {s : MetadataStore} {node : MetadataNode} :
    s.check node = .ok () ↔ Admitted s.nodes node := by
  rw [admitted_iff]
  cases node with
  | module name => simp [check]
  | compileUnit language file directory producer optimized flags runtimeVersion => simp [check]
  | basicType name size align encoding => simp [check]
  | pointerType pointee size align name => cases pointee <;> simp [check, pure, Except.pure]
  | subprogram scope name linkageName line => cases linkageName <;> simp [check, and_assoc]
  | location line column scope => simp [check]
  | tuple operands => simp [check]

theorem create_eq_ok_iff {s : MetadataStore} {node : MetadataNode} {id : NodeId} :
    (s.create node).1 = .ok id ↔ Admitted s.nodes node ∧ idAt s.nodes.length = id := by
  rw [← check_eq_ok_iff, create]
  cases s.check node with
  | error e => simp
  | ok => simp

theorem attach_eq_ok_iff {s : MetadataStore} {name : String} {id : NodeId} :
    (s.attach name id).1 = .ok () ↔ IsName name ∧ id.index.toNat < s.nodes.length := by
  have hchecks : (do checkName "named metadata" name; s.checkNode "named metadata operand" id) =
      .ok () ↔ IsName name ∧ id.index.toNat < s.nodes.length := by simp
  rw [← hchecks, attach]
  split
  next e herror => simp [herror]
  next hok => simp [hok]

end MetadataStore

end TernBackend
