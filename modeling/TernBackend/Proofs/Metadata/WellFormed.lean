import TernBackend.Proofs.Metadata.Run

/-!
# Well-formed metadata

Every node was admitted behind the nodes before it (`Grown`), which stays so when nodes are cut off at the
end. So references lead back, what belongs to a compile unit comes behind one, and names are names, whatever
rollbacks there were (`run_wellFormed`).

Operands are different: a mark can take back nodes and leave the operands that refer to them. That does not
happen when only marks are gone back to that were taken before and not undercut since (`Orderly`), because
such a rollback gives back a store that has been there already.
-/

namespace TernBackend.MetadataStore

/-! ## Nodes -/

/-- Every node was admitted behind those before it. -/
def Grown (nodes : List MetadataNode) : Prop :=
  ∀ i node, nodes[i]? = some node → Admitted (nodes.take i) node

theorem Grown.concat {nodes : List MetadataNode} {node : MetadataNode} (h : Grown nodes)
    (hnode : Admitted nodes node) : Grown (nodes ++ [node]) := by
  intro i n hi
  rcases Nat.lt_trichotomy i nodes.length with hlt | heq | hgt
  · rw [List.getElem?_append_left hlt] at hi
    rw [List.take_append_of_le_length hlt.le]
    exact h i n hi
  · rw [heq, List.getElem?_concat_length, Option.some.injEq] at hi
    rw [heq, List.take_left, ← hi]
    exact hnode
  · rw [List.getElem?_eq_none (by rw [List.length_append]; exact hgt)] at hi
    cases hi

theorem Grown.take {nodes : List MetadataNode} (h : Grown nodes) (count : Nat) : Grown (nodes.take count) := by
  intro i node hi
  rw [List.getElem?_take, Option.ite_none_right_eq_some] at hi
  obtain ⟨hlt, hnode⟩ := hi
  rw [List.take_take, Nat.min_eq_left hlt.le]
  exact h i node hnode

/-! ## Logs -/

/-- What the checks have let into the logs. -/
structure Sound (l : MetadataLog) : Prop where
  nodes : Grown l.nodes
  groups : ∀ a ∈ l.additions, IsName a.group

theorem Sound.log {l : MetadataLog} {s : MetadataStore} (h : Sound l) (hs : s = l.store) (call : StoreCall) :
    Sound (call.log s l) := by
  subst hs
  cases call with
  | create node =>
    rw [StoreCall.log]
    split
    next id hid => exact ⟨h.nodes.concat (create_eq_ok_iff.1 hid).1, h.groups⟩
    next => exact h
  | attach group id =>
    rw [StoreCall.log]
    split
    next hok =>
      refine ⟨h.nodes, List.forall_mem_append.2 ⟨h.groups, fun a ha => ?_⟩⟩
      rw [List.mem_singleton.1 ha]
      exact (attach_eq_ok_iff.1 hok).1
    next => exact h
  | rollback m => exact ⟨h.nodes.take _, fun a ha => h.groups a (List.mem_of_mem_take ha)⟩

theorem sound_logOf (calls : List StoreCall) : Sound (logOf calls) := by
  induction calls using List.reverseRecOn with
  | nil => exact ⟨fun i node hi => (nomatch hi), fun a ha => (nomatch ha)⟩
  | append_singleton calls call ih =>
    rw [logOf_concat]
    exact ih.log (run_eq_store calls) call

/-- References lead back, what belongs to a compile unit comes behind one, names are names, and no two
groups have the same. -/
structure WellFormed (s : MetadataStore) : Prop where
  references_lt : ∀ (i : Nat) (node : MetadataNode), s.nodes[i]? = some node →
    ∀ id ∈ node.references, id.index.toNat < i
  unit_before : ∀ (i : Nat) (node : MetadataNode), s.nodes[i]? = some node → node.belongsToUnit = true →
    ∃ j < i, ∃ unit : MetadataNode, s.nodes[j]? = some unit ∧ unit.isCompileUnit = true
  names : ∀ node ∈ s.nodes, ∀ name ∈ node.names, IsName name
  groupNames : ∀ g ∈ s.groups, IsName g.name
  nodup_groupNames : (s.groups.map (·.name)).Nodup

theorem Sound.wellFormed {l : MetadataLog} (h : Sound l) : l.store.WellFormed where
  references_lt i node hi id hid := by
    have hlt := (h.nodes i node hi).references_lt id hid
    rw [List.length_take] at hlt
    omega
  unit_before i node hi hnode := by
    obtain ⟨unit, hmem, hunit⟩ := (h.nodes i node hi).unit hnode
    obtain ⟨j, hj⟩ := List.mem_iff_getElem?.1 hmem
    rw [List.getElem?_take, Option.ite_none_right_eq_some] at hj
    exact ⟨j, hj.1, unit, hj.2, hunit⟩
  names node hnode := by
    obtain ⟨i, hi⟩ := List.mem_iff_getElem?.1 hnode
    exact (h.nodes i node hi).names
  groupNames g hg := by
    obtain ⟨name, hname, rfl⟩ := List.mem_map.1 hg
    obtain ⟨a, ha, rfl⟩ := Addition.mem_names.1 hname
    exact h.groups a ha
  nodup_groupNames := by
    rw [MetadataLog.store, Addition.groups, Addition.map_name_groupsOf]
    exact Addition.nodup_names _

/-! ## Operands -/

/-- The operands of all groups are nodes that are there. -/
def OperandsExist (s : MetadataStore) : Prop :=
  ∀ g ∈ s.groups, ∀ id ∈ g.operands, (s.node? id).isSome = true

theorem operandsExist_store {l : MetadataLog} :
    l.store.OperandsExist ↔ ∀ a ∈ l.additions, a.operand.index.toNat < l.nodes.length := by
  have hnode (id : NodeId) : (l.store.node? id).isSome = true ↔ id.index.toNat < l.nodes.length := by
    simp [node?_store]
  simp only [OperandsExist, hnode]
  constructor
  · intro h a ha
    refine h ⟨a.group, Addition.operandsOf l.additions a.group⟩ ?_ _ (Addition.mem_operandsOf.2 ha)
    exact List.mem_map.2 ⟨a.group, Addition.mem_names.2 ⟨a, ha, rfl⟩, rfl⟩
  · intro h g hg id hid
    obtain ⟨name, -, rfl⟩ := List.mem_map.1 hg
    exact h _ (Addition.mem_operandsOf.1 hid)

/-- Every rollback goes to a mark that was taken before, and since then no rollback has gone to fewer nodes
or to fewer operands. -/
def Orderly (calls : List StoreCall) : Prop :=
  ∀ before m after, calls = before ++ .rollback m :: after →
    ∃ earlier between, before = earlier ++ between ∧ (empty.run earlier).mark = m ∧
      StoreCall.Spare m between

theorem Orderly.of_concat {calls : List StoreCall} {call : StoreCall} (h : Orderly (calls ++ [call])) :
    Orderly calls := fun before m after heq => h before m (after ++ [call]) (by rw [heq]; simp)

/-- An orderly rollback gives back an earlier store. -/
theorem Orderly.rollback {calls : List StoreCall} {m : Mark} (h : Orderly (calls ++ [.rollback m])) :
    ∃ earlier, earlier <+: calls ∧ empty.run (calls ++ [.rollback m]) = empty.run earlier := by
  obtain ⟨earlier, between, rfl, rfl, hspare⟩ := h calls m [] rfl
  refine ⟨earlier, List.prefix_append _ _, ?_⟩
  rw [run_append, run_append]
  rw [run_eq_store earlier] at hspare ⊢
  exact rollback_run_store (logOf earlier) hspare

theorem Orderly.operandsExist {calls : List StoreCall} (h : Orderly calls) :
    ∀ before, before <+: calls → (empty.run before).OperandsExist := by
  -- all earlier stores are kept along, as a rollback may give back any of them
  induction calls using List.reverseRecOn with
  | nil =>
    intro before hbefore
    rw [List.prefix_nil.1 hbefore]
    intro g hg
    cases hg
  | append_singleton calls call ih =>
    intro before hbefore
    have hearlier := ih h.of_concat
    rcases List.prefix_concat_iff.1 hbefore with rfl | hbefore
    · have hold := hearlier calls (List.prefix_refl _)
      cases call with
      | create node =>
        rw [run_eq_store, operandsExist_store] at hold ⊢
        rw [logOf_concat, StoreCall.log]
        split
        · intro a ha
          exact (hold a ha).trans_le (List.prefix_append _ _).length_le
        · exact hold
      | attach group id =>
        rw [run_eq_store, operandsExist_store] at hold ⊢
        rw [logOf_concat, StoreCall.log]
        split
        next hok =>
          have hlt := (attach_eq_ok_iff.1 hok).2
          rw [run_eq_store] at hlt
          refine List.forall_mem_append.2 ⟨hold, fun a ha => ?_⟩
          rw [List.mem_singleton.1 ha]
          exact hlt
        next => exact hold
      | rollback m =>
        obtain ⟨earlier, hprefix, heq⟩ := h.rollback
        rw [heq]
        exact hearlier earlier hprefix
    · exact hearlier before hbefore

/-! ## The result -/

/-- **Metadata is well formed.** After any calls on an empty store, with rollbacks to any marks: every node
refers to nodes before it only; every type, subprogram and location has a compile unit before it; the names
of modules, files, types, subprograms and groups, and linkage names, are not empty and hold no NUL; and no
two groups have the same name. If every rollback goes to a mark that was taken before, and not undercut
since, then also every operand of a group is a node that is there. -/
theorem run_wellFormed (calls : List StoreCall) :
    (empty.run calls).WellFormed ∧
      (Orderly calls → ∀ g ∈ (empty.run calls).groups, ∀ id ∈ g.operands,
        ((empty.run calls).node? id).isSome = true) := by
  refine ⟨?_, fun h => h.operandsExist calls (List.prefix_refl _)⟩
  rw [run_eq_store]
  exact (sound_logOf calls).wellFormed

/-- A node and its use in a second group are taken back to a mark, and then the group comes again. -/
theorem run_wellFormed_orderly :
    let id : NodeId := ⟨0⟩
    let calls : List StoreCall := [.create (.module "m"), .attach "a" id, .create (.tuple [.node id]),
      .attach "b" ⟨1⟩, .rollback ⟨1, 1⟩, .attach "b" id]
    Orderly calls ∧ (empty.run calls).groups = [⟨"a", [id]⟩, ⟨"b", [id]⟩] ∧
      ((empty.run calls).node? id).isSome = true := by
  intro id calls
  have horderly : Orderly calls := by
    intro before m after h
    obtain ⟨hbefore, hm, -⟩ : before = [.create (.module "m"), .attach "a" id] ++
        [.create (.tuple [.node id]), .attach "b" ⟨1⟩] ∧ m = ⟨1, 1⟩ ∧ after = [.attach "b" id] := by
      simpa [calls, List.cons_eq_append_iff] using h
    refine ⟨_, _, hbefore, ?_, fun k hk => ?_⟩
    · rw [hm]
      decide +kernel
    · simp at hk
  have hgroups : (empty.run calls).groups = [⟨"a", [id]⟩, ⟨"b", [id]⟩] := by
    decide +kernel
  have hb : ⟨"b", [id]⟩ ∈ (empty.run calls).groups := by
    rw [hgroups]
    decide
  exact ⟨horderly, hgroups, (run_wellFormed calls).2 horderly _ hb id List.mem_cons_self⟩

/-- A mark that was never taken can leave an operand whose node is gone. -/
example :
    let s := empty.run [.create (.module "m"), .create (.tuple []), .attach "a" ⟨1⟩, .rollback ⟨1, 1⟩]
    s.groups = [⟨"a", [⟨1⟩]⟩] ∧ s.node? ⟨1⟩ = none := by
  decide +kernel

end TernBackend.MetadataStore
