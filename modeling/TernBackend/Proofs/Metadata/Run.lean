import TernBackend.Proofs.Metadata.Admission
import TernBackend.Proofs.Metadata.Log

/-!
# Runs of calls on a store

While calls are made on a store, the logs of what it has accepted are kept beside it. The store is at all
times the one that the logs make (`run_eq_store`), so whatever it is asked, it answers from the logs
(`run_reads_logs`), and going back to a mark gives back the very store that was marked, as long as no
rollback in between went below the mark (`rollback_mark`).
-/

namespace TernBackend

/-- A call that may change a store. -/
inductive StoreCall where
  | create (node : MetadataNode)
  | attach (group : String) (id : NodeId)
  | rollback (mark : Mark)

namespace StoreCall

/-- The store after a call. -/
def apply (s : MetadataStore) : StoreCall → MetadataStore
  | create node => (s.create node).2
  | attach group id => (s.attach group id).2
  | rollback m => s.rollback m

/-- The logs after a call on a store. What is accepted comes in at the end, what is refused leaves no
trace, and going back to a mark cuts both logs off. -/
def log (s : MetadataStore) (l : MetadataLog) : StoreCall → MetadataLog
  | create node =>
    match (s.create node).1 with
    | .ok _ => l.push node
    | .error _ => l
  | attach group id =>
    match (s.attach group id).1 with
    | .ok _ => l.add ⟨group, id⟩
    | .error _ => l
  | rollback m => l.take m

/-- No rollback among the calls goes to fewer nodes or to fewer operands than a mark has. -/
def Spare (m : Mark) (calls : List StoreCall) : Prop :=
  ∀ k, rollback k ∈ calls → m.nodes ≤ k.nodes ∧ m.operands ≤ k.operands

/-! ## One call -/

theorem apply_store (l : MetadataLog) (call : StoreCall) : call.apply l.store = (call.log l.store l).store := by
  cases call with
  | create node =>
    rw [apply, log, MetadataStore.create]
    cases l.store.check node with
    | error e => rfl
    | ok => exact (l.store_push node).symm
  | attach group id =>
    rw [apply, log, MetadataStore.attach]
    split
    · rfl
    · exact (l.store_add ⟨group, id⟩).symm
  | rollback m => exact (l.store_take m).symm

end StoreCall

/-! ## All calls -/

namespace MetadataStore

def run (s : MetadataStore) (calls : List StoreCall) : MetadataStore := calls.foldl StoreCall.apply s

/-- The logs after calls on a store. -/
def record (s : MetadataStore) (l : MetadataLog) : List StoreCall → MetadataLog
  | [] => l
  | call :: calls => (call.apply s).record (call.log s l) calls

theorem run_store (l : MetadataLog) (calls : List StoreCall) :
    l.store.run calls = (l.store.record l calls).store := by
  induction calls generalizing l with
  | nil => rfl
  | cons call calls ih =>
    rw [run, List.foldl_cons, record, call.apply_store]
    exact ih _

theorem run_append (s : MetadataStore) (calls later : List StoreCall) :
    s.run (calls ++ later) = (s.run calls).run later := List.foldl_append

theorem record_concat (s : MetadataStore) (l : MetadataLog) (calls : List StoreCall) (call : StoreCall) :
    s.record l (calls ++ [call]) = call.log (s.run calls) (s.record l calls) := by
  induction calls generalizing s l with
  | nil => rfl
  | cons first calls ih =>
    rw [List.cons_append, record, record, run, List.foldl_cons]
    exact ih _ _

/-- The logs after calls on an empty store. -/
def logOf (calls : List StoreCall) : MetadataLog := empty.record {} calls

theorem logOf_concat (calls : List StoreCall) (call : StoreCall) :
    logOf (calls ++ [call]) = call.log (empty.run calls) (logOf calls) := record_concat _ _ _ _

/-- The store is the one that the logs make. -/
theorem run_eq_store (calls : List StoreCall) : empty.run calls = (logOf calls).store := run_store {} calls

/-! ## Reading the store -/

theorem node?_store (l : MetadataLog) (id : NodeId) : l.store.node? id = l.nodes[id.index.toNat]? := rfl

theorem toNat_idAt {place : Nat} (h : place < 2 ^ 32) : (idAt place).index.toNat = place := by
  rw [idAt, UInt32.toNat_ofNat', Nat.mod_eq_of_lt (by omega)]
  exact Nat.min_eq_left (Nat.le_pred_of_lt h)

theorem numbered_store {l : MetadataLog} (h : l.nodes.length ≤ 2 ^ 32) :
    (l.store.numbered.map fun (id, node) => (node, id.index.toNat)) = l.nodes.zipIdx := by
  rw [numbered, List.map_map]
  refine (List.map_congr_left fun p hp => ?_).trans (List.map_id _)
  obtain ⟨node, place⟩ := p
  have hplace : place < l.nodes.length := (List.mem_zipIdx' hp).1
  exact Prod.ext rfl (toNat_idAt (by omega))

theorem operands_ne_nil {l : MetadataLog} {g : NamedGroup} (h : g ∈ l.store.groups) : g.operands ≠ [] := by
  obtain ⟨name, hname, rfl⟩ := List.mem_map.1 h
  exact fun hnil => Addition.operandsOf_eq_nil_iff.1 hnil hname

theorem group?_store_eq_none_iff {l : MetadataLog} {name : String} :
    l.store.group? name = none ↔ ∀ a ∈ l.additions, a.group ≠ name := by
  have hgroups : name ∈ l.store.groups.map (·.name) ↔ ∃ a ∈ l.additions, a.group = name := by
    rw [MetadataLog.store, Addition.groups, Addition.map_name_groupsOf, Addition.mem_names]
  rw [group?, Option.map_eq_none_iff, List.find?_eq_none]
  constructor
  · intro h a ha heq
    obtain ⟨g, hg, hname⟩ := List.mem_map.1 (hgroups.2 ⟨a, ha, heq⟩)
    exact h g hg (beq_iff_eq.2 hname)
  · intro h g hg hname
    obtain ⟨a, ha, heq⟩ := hgroups.1 (List.mem_map.2 ⟨g, hg, beq_iff_eq.1 hname⟩)
    exact h a ha heq

/-- **A store reads from two logs.** After any calls on an empty store, with rollbacks to any marks, and
with fewer than 2³² nodes: a number reads the log of nodes at its place, and so do all nodes in order; the
next node to be accepted gets the length of that log as its number; the groups are the additions grouped
by name, in the order of the first additions that are left, and none is empty; a name has no group just
when no addition to it is left; and the mark holds the lengths of the two logs. -/
theorem run_reads_logs (calls : List StoreCall) (h : (logOf calls).nodes.length < 2 ^ 32) :
    (∀ id, (empty.run calls).node? id = (logOf calls).nodes[id.index.toNat]?) ∧
    ((empty.run calls).numbered.map fun (id, node) => (node, id.index.toNat)) = (logOf calls).nodes.zipIdx ∧
    (∀ node id, ((empty.run calls).create node).1 = .ok id → id.index.toNat = (logOf calls).nodes.length) ∧
    (empty.run calls).groups = Addition.groups (logOf calls).additions ∧
    (∀ g ∈ (empty.run calls).groups, g.operands ≠ []) ∧
    (∀ name, (empty.run calls).group? name = none ↔ ∀ a ∈ (logOf calls).additions, a.group ≠ name) ∧
    (empty.run calls).mark = ⟨(logOf calls).nodes.length, (logOf calls).additions.length⟩ := by
  rw [run_eq_store]
  refine ⟨node?_store _, numbered_store h.le, fun node id hid => ?_, rfl, fun g => operands_ne_nil,
    fun name => group?_store_eq_none_iff, (logOf calls).mark_store⟩
  rw [← (create_eq_ok_iff.1 hid).2]
  exact toNat_idAt h

/-- Additions interleaved over two groups, of which a mark that fits no state takes two back; then the
second group comes again, behind a third one. -/
theorem run_reads_logs_regrouped :
    let id : NodeId := ⟨0⟩
    let calls : List StoreCall := [.create (.module "m"), .attach "a" id, .attach "b" id, .attach "a" id,
      .rollback ⟨5, 1⟩, .attach "c" id, .attach "b" id, .attach "" id]
    (logOf calls).nodes.length < 2 ^ 32 ∧
      (empty.run calls).groups = [⟨"a", [id]⟩, ⟨"c", [id]⟩, ⟨"b", [id]⟩] ∧
      (empty.run calls).group? "" = none ∧ (empty.run calls).mark = ⟨1, 3⟩ := by
  intro id calls
  have hadditions : (logOf calls).additions = [⟨"a", id⟩, ⟨"c", id⟩, ⟨"b", id⟩] := by
    decide +kernel
  have hlength : (logOf calls).nodes.length = 1 := by
    decide +kernel
  have hfew : (logOf calls).nodes.length < 2 ^ 32 := by
    rw [hlength]
    decide
  obtain ⟨-, -, -, hgroups, -, hnone, hmark⟩ := run_reads_logs calls hfew
  refine ⟨hfew, ?_, (hnone "").2 ?_, ?_⟩
  · rw [hgroups, hadditions]
    decide +kernel
  · rw [hadditions]
    decide
  · rw [hmark, hadditions, hlength]
    rfl

end MetadataStore

/-! ## Going back to a mark -/

namespace MetadataLog

/-- The logs begin with earlier ones. -/
structure Extends (earlier l : MetadataLog) : Prop where
  nodes : earlier.nodes <+: l.nodes
  additions : earlier.additions <+: l.additions

variable {earlier l : MetadataLog}

theorem Extends.log (h : Extends earlier l) (s : MetadataStore) (call : StoreCall)
    (hspare : StoreCall.Spare ⟨earlier.nodes.length, earlier.additions.length⟩ [call]) :
    Extends earlier (call.log s l) := by
  cases call with
  | create node =>
    rw [StoreCall.log]
    split
    · exact ⟨h.nodes.trans (List.prefix_append _ _), h.additions⟩
    · exact h
  | attach group id =>
    rw [StoreCall.log]
    split
    · exact ⟨h.nodes, h.additions.trans (List.prefix_append _ _)⟩
    · exact h
  | rollback m =>
    obtain ⟨hnodes, hoperands⟩ := hspare m List.mem_cons_self
    exact ⟨List.prefix_take_iff.2 ⟨h.nodes, hnodes⟩, List.prefix_take_iff.2 ⟨h.additions, hoperands⟩⟩

theorem Extends.record (h : Extends earlier l) (s : MetadataStore) {calls : List StoreCall}
    (hspare : StoreCall.Spare ⟨earlier.nodes.length, earlier.additions.length⟩ calls) :
    Extends earlier (s.record l calls) := by
  induction calls generalizing s l with
  | nil => exact h
  | cons call calls ih =>
    have hcall : StoreCall.Spare ⟨earlier.nodes.length, earlier.additions.length⟩ [call] := by
      intro k hk
      rw [List.mem_singleton] at hk
      exact hspare k (hk ▸ List.mem_cons_self)
    exact ih (h.log s call hcall) _ fun k hk => hspare k (List.mem_cons_of_mem _ hk)

theorem Extends.take (h : Extends earlier l) :
    l.take ⟨earlier.nodes.length, earlier.additions.length⟩ = earlier := by
  rw [MetadataLog.take, ← List.prefix_iff_eq_take.1 h.nodes, ← List.prefix_iff_eq_take.1 h.additions]

end MetadataLog

namespace MetadataStore

theorem rollback_run_store (l : MetadataLog) {later : List StoreCall}
    (h : StoreCall.Spare l.store.mark later) : (l.store.run later).rollback l.store.mark = l.store := by
  rw [MetadataLog.mark_store] at h ⊢
  have hextends := MetadataLog.Extends.record ⟨List.prefix_refl _, List.prefix_refl _⟩ l.store h
  rw [run_store, ← MetadataLog.store_take, hextends.take]

/-- **Going back to a mark gives back what was marked.** A store is marked after any calls, and any calls
follow, accepted or refused, with rollbacks to marks that have no fewer nodes and no fewer operands. Then
going back to the mark gives a store that is equal to the marked one in its nodes, its groups and its
journal. -/
theorem rollback_mark (before later : List StoreCall) (h : StoreCall.Spare (empty.run before).mark later) :
    ((empty.run before).run later).rollback (empty.run before).mark = empty.run before := by
  rw [run_eq_store] at h ⊢
  exact rollback_run_store (logOf before) h

/-- A mark after a rollback that took a group away; then two groups come, one of them goes again, and a
name is refused. -/
theorem rollback_mark_nested :
    let id : NodeId := ⟨0⟩
    let before : List StoreCall :=
      [.create (.module "m"), .attach "a" id, .attach "b" id, .rollback ⟨1, 1⟩]
    let later : List StoreCall :=
      [.attach "b" id, .create (.tuple []), .attach "c" ⟨1⟩, .rollback ⟨1, 2⟩, .attach "a" id, .attach "" id]
    StoreCall.Spare (empty.run before).mark later ∧ (empty.run before).run later ≠ empty.run before ∧
      ((empty.run before).run later).rollback (empty.run before).mark = empty.run before := by
  intro id before later
  have hmark : (empty.run before).mark = ⟨1, 1⟩ := by
    decide +kernel
  have hspare : StoreCall.Spare (empty.run before).mark later := by
    intro k hk
    have hk : k = ⟨1, 2⟩ := by simpa [later] using hk
    rw [hmark, hk]
    decide
  exact ⟨hspare, by decide +kernel, rollback_mark before later hspare⟩

end MetadataStore

end TernBackend
