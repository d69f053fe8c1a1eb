import TernBackend.Metadata.Node
import TernBackend.Text.Escape

/-!
# The metadata store

Nodes are numbered in the order of their creation. Named groups collect node numbers; a group comes
into being with its first operand. A journal notes, for every operand, the place of its group.

A node is admitted only if its names are not empty, no text in it holds a NUL, and every node it
refers to exists; types, subprograms and locations also need a compile unit. What is turned down
changes nothing.

A mark is the number of nodes and the number of operands. Going back to a mark removes what was
added since: operands are taken off the ends of their groups, as the journal tells, and groups left
empty at the end of the list of groups go with them.
-/

namespace TernBackend

/-- `NamedMetadata`. A group and its operands, in the order in which they were added. -/
structure NamedGroup where
  name : String
  operands : List NodeId
  deriving DecidableEq

/-- `SinkMark`. How many nodes and how many operands there are. -/
structure Mark where
  nodes : Nat
  operands : Nat
  deriving DecidableEq

/-- `MetadataModule`. -/
structure MetadataStore where
  nodes : List MetadataNode := []
  groups : List NamedGroup := []
  /-- For every operand, in the order of their addition, the place of its group. -/
  journal : List Nat := []
  deriving DecidableEq, Inhabited

namespace MetadataStore

def empty : MetadataStore := {}

/-! ## Queries -/

def isEmpty (s : MetadataStore) : Bool := s.nodes.isEmpty && s.groups.isEmpty

/-- `MetadataModule::node`. -/
def node? (s : MetadataStore) (id : NodeId) : Option MetadataNode := s.nodes[id.index.toNat]?

/-- `index_u32`: the number of a place in the list of nodes. The largest number stands for all later
places. -/
def idAt (place : Nat) : NodeId := ⟨UInt32.ofNat (min place (UInt32.size - 1))⟩

/-- `MetadataModule::nodes`. -/
def numbered (s : MetadataStore) : List (NodeId × MetadataNode) :=
  s.nodes.zipIdx.map fun (node, place) => (idAt place, node)

/-- `MetadataModule::named_metadata`. -/
def group? (s : MetadataStore) (name : String) : Option (List NodeId) :=
  (s.groups.find? (·.name == name)).map (·.operands)

/-- `MetadataModule::compile_unit_count`. -/
def compileUnitCount (s : MetadataStore) : Nat := s.nodes.countP (·.isCompileUnit)

/-! ## What is admitted -/

/-- `check_text`. -/
def checkText (what text : String) : Except DebugError Unit :=
  if '\x00' ∈ text.toList then throw (.rejected what (.containsNul (Text.escaped text))) else pure ()

/-- `check_name`: a name must not be empty nor hold a NUL. -/
def checkName (what name : String) : Except DebugError Unit :=
  if name = "" then throw (.rejected what .emptyName) else checkText what name

/-- `MetadataModule::check_node`. -/
def checkNode (s : MetadataStore) (what : String) (id : NodeId) : Except DebugError Unit :=
  if id.index.toNat < s.nodes.length then pure () else throw (.rejected what (.unknownNode id))

/-- `MetadataModule::require_compile_unit`. -/
def checkCompileUnit (s : MetadataStore) : Except DebugError Unit :=
  if s.nodes.any (·.isCompileUnit) then pure () else throw .missingCompileUnit

/-- An operand of a tuple must be a text without NUL, an existing node or a number. -/
def checkOperand (s : MetadataStore) : MetadataValue → Except DebugError Unit
  | .int _ => pure ()
  | .string text => checkText "tuple operand" text
  | .node id => s.checkNode "tuple operand" id

/-- Whether a node may be added, and if not, the first reason against it: the checks of
`create_module` and the other methods that create a node, in their order. -/
def check (s : MetadataStore) : MetadataNode → Except DebugError Unit
  | .module name => checkName "module name" name
  | .compileUnit _ file directory producer _ flags _ => do
    checkName "compile unit file" file
    checkText "compile unit directory" directory
    checkText "compile unit producer" producer
    checkText "compile unit flags" flags
  | .basicType name .. => do
    s.checkCompileUnit
    checkName "basic type name" name
  | .pointerType pointee _ _ name => do
    s.checkCompileUnit
    checkName "pointer type name" name
    match pointee with
    | some id => s.checkNode "pointer type pointee" id
    | none => pure ()
  | .subprogram scope name linkageName _ => do
    s.checkCompileUnit
    checkName "subprogram name" name
    match linkageName with
    | some linkageName => checkName "subprogram linkage name" linkageName
    | none => pure ()
    s.checkNode "subprogram scope" scope
  | .location _ _ scope => do
    s.checkCompileUnit
    s.checkNode "location scope" scope
  | .tuple operands => operands.forM s.checkOperand

/-! ## Changes -/

/-- `MetadataModule::push`. -/
def push (s : MetadataStore) (node : MetadataNode) : MetadataStore :=
  { s with nodes := s.nodes ++ [node] }

/-- Adds a node, if it is admitted, and gives its number. -/
def create (s : MetadataStore) (node : MetadataNode) : Except DebugError NodeId × MetadataStore :=
  match s.check node with
  | .error e => (.error e, s)
  | .ok () => (.ok (idAt s.nodes.length), s.push node)

/-- The store with one more operand at the end of the group at `place`. -/
def append (s : MetadataStore) (place : Nat) (id : NodeId) : MetadataStore :=
  { s with
    groups := s.groups.modify place fun g => { g with operands := g.operands ++ [id] }
    journal := s.journal ++ [place] }

/-- The store in which a group has its place, and that place. A new group is the last one. -/
def placeOf (s : MetadataStore) (name : String) : Nat × MetadataStore :=
  match s.groups.findIdx? (·.name == name) with
  | some place => (place, s)
  | none => (s.groups.length, { s with groups := s.groups ++ [⟨name, []⟩] })

/-- `add_named_metadata_operand`: adds an operand to a group, if both are admitted. -/
def attach (s : MetadataStore) (name : String) (id : NodeId) : Except DebugError Unit × MetadataStore :=
  match (do checkName "named metadata" name; s.checkNode "named metadata operand" id) with
  | .error e => (.error e, s)
  | .ok () =>
    let (place, s) := s.placeOf name
    (.ok (), s.append place id)

/-! ## Marks -/

def mark (s : MetadataStore) : Mark := ⟨s.nodes.length, s.journal.length⟩

def dropOperand (place : Nat) (groups : List NamedGroup) : List NamedGroup :=
  groups.modify place fun g => { g with operands := g.operands.dropLast }

/-- The groups without the empty ones at the end. -/
def dropEmptyEnd (groups : List NamedGroup) : List NamedGroup :=
  (groups.reverse.dropWhile (·.operands.isEmpty)).reverse

/-- `rollback`: the store without what was added since a mark. -/
def rollback (s : MetadataStore) (m : Mark) : MetadataStore where
  nodes := s.nodes.take m.nodes
  groups := dropEmptyEnd ((s.journal.drop m.operands).foldr dropOperand s.groups)
  journal := s.journal.take m.operands

end MetadataStore

end TernBackend
