import Mathlib
import TernBackend.Metadata.Store

/-!
# The store as two logs

A store is made of two logs: the nodes, and the additions of operands to groups. Its groups are the
additions grouped by name, and its journal tells for every addition the place of its group
(`MetadataLog.store`). Adding a node or an operand adds to the end of a log, and going back to a mark cuts
both logs off (`store_push`, `store_add`, `store_take`).

The groups come in the order of their first additions. So when additions are taken off the end of the log,
the groups that become empty are the last ones, and taking these away leaves the groups of the shorter log.
-/

namespace TernBackend

/-- An operand, and the name of the group that it was added to. -/
structure Addition where
  group : String
  operand : NodeId
  deriving DecidableEq

namespace Addition

/-! ## Grouping -/

/-- The names of the groups, in the order of their first additions. -/
def names (as : List Addition) : List String := (as.map (·.group)).eraseDups

/-- What was added to a group, in order. -/
def operandsOf (as : List Addition) (name : String) : List NodeId :=
  (as.filter (·.group == name)).map (·.operand)

/-- What was added to some groups, which may be nothing. -/
def groupsOf (names : List String) (as : List Addition) : List NamedGroup :=
  names.map fun name => ⟨name, operandsOf as name⟩

/-- The additions grouped by name. -/
def groups (as : List Addition) : List NamedGroup := groupsOf (names as) as

/-- For every addition, the place of its group among some names. -/
def places (names : List String) (as : List Addition) : List Nat := as.map fun a => names.idxOf a.group

theorem mem_names {as : List Addition} {name : String} : name ∈ names as ↔ ∃ a ∈ as, a.group = name := by
  rw [names, List.mem_eraseDups, List.mem_map]

/-- Later additions give new groups, if any, their place behind the groups that are there. -/
theorem names_append (as bs : List Addition) :
    names (as ++ bs) = names as ++ ((bs.map (·.group)).removeAll (as.map (·.group))).eraseDups := by
  rw [names, List.map_append, List.eraseDups_append]
  rfl

theorem names_concat (as : List Addition) (a : Addition) :
    names (as ++ [a]) = if a.group ∈ names as then names as else names as ++ [a.group] := by
  have hnew (groups : List String) :
      ([a.group].removeAll groups).eraseDups = if a.group ∈ groups then [] else [a.group] := by
    by_cases hgroup : a.group ∈ groups <;> simp [List.removeAll, List.eraseDups_cons, hgroup]
  have hiff : a.group ∈ names as ↔ a.group ∈ as.map (·.group) := List.mem_eraseDups
  rw [names_append, List.map_singleton, hnew]
  by_cases hmem : a.group ∈ names as
  · rw [if_pos hmem, if_pos (hiff.1 hmem), List.append_nil]
  · rw [if_neg hmem, if_neg (mt hiff.2 hmem)]

theorem nodup_names (as : List Addition) : (names as).Nodup := by
  induction as using List.reverseRecOn with
  | nil => exact List.nodup_nil
  | append_singleton as a ih =>
    rw [names_concat]
    by_cases hmem : a.group ∈ names as
    · rw [if_pos hmem]
      exact ih
    · rw [if_neg hmem]
      rw [← List.concat_eq_append]
      exact ih.concat hmem

theorem operandsOf_concat (as : List Addition) (a : Addition) (name : String) :
    operandsOf (as ++ [a]) name =
      if name = a.group then operandsOf as name ++ [a.operand] else operandsOf as name := by
  by_cases hname : name = a.group
  · simp [operandsOf, hname]
  · simp [operandsOf, hname, Ne.symm hname]

theorem operandsOf_eq_nil_iff {as : List Addition} {name : String} :
    operandsOf as name = [] ↔ name ∉ names as := by
  rw [operandsOf, List.map_eq_nil_iff, List.filter_eq_nil_iff, mem_names]
  simp

theorem mem_operandsOf {as : List Addition} {name : String} {id : NodeId} :
    id ∈ operandsOf as name ↔ ⟨name, id⟩ ∈ as := by
  simp only [operandsOf, List.mem_map, List.mem_filter, beq_iff_eq]
  constructor
  · rintro ⟨a, ⟨ha, rfl⟩, rfl⟩
    exact ha
  · intro h
    exact ⟨_, ⟨h, rfl⟩, rfl⟩

@[simp] theorem map_name_groupsOf (names : List String) (as : List Addition) :
    (groupsOf names as).map (·.name) = names := by
  rw [groupsOf, List.map_map]
  exact List.map_id names

/-! ## One operand more, one operand less -/

/-- Changing the entry at the place of a name changes it for this name only. -/
theorem modify_idxOf {names : List String} (hnodup : names.Nodup) (name : String) (g : String → NamedGroup)
    (f : NamedGroup → NamedGroup) :
    (names.map g).modify (names.idxOf name) f = names.map fun n => if n = name then f (g n) else g n := by
  induction names with
  | nil => rfl
  | cons n names ih =>
    obtain ⟨hn, hnodup⟩ := List.nodup_cons.1 hnodup
    by_cases hname : n = name
    · subst hname
      have hothers : ∀ k ∈ names, g k = if k = n then f (g k) else g k := by
        intro k hk
        have hne : k ≠ n := fun heq => hn (heq ▸ hk)
        rw [if_neg hne]
      rw [List.idxOf_cons_self, List.map_cons, List.map_cons, List.modify_zero_cons, if_pos rfl,
        List.map_congr_left hothers]
    · rw [List.idxOf_cons_ne _ hname, List.map_cons, List.map_cons, List.modify_succ_cons, if_neg hname,
        ih hnodup]

theorem modify_groupsOf {names : List String} (hnodup : names.Nodup) (as : List Addition) (a : Addition) :
    (groupsOf names as).modify (names.idxOf a.group) (fun g => { g with operands := g.operands ++ [a.operand] }) =
      groupsOf names (as ++ [a]) := by
  rw [groupsOf, groupsOf, modify_idxOf hnodup]
  refine List.map_congr_left fun name _ => ?_
  rw [operandsOf_concat]
  split <;> rfl

theorem dropOperand_groupsOf {names : List String} (hnodup : names.Nodup) (as : List Addition) (a : Addition) :
    MetadataStore.dropOperand (names.idxOf a.group) (groupsOf names (as ++ [a])) = groupsOf names as := by
  rw [MetadataStore.dropOperand, groupsOf, groupsOf, modify_idxOf hnodup]
  refine List.map_congr_left fun name _ => ?_
  rw [operandsOf_concat]
  split
  · rw [List.dropLast_concat]
  · rfl

/-- Taking operands off as the places of the last additions tell leaves what was added before them. -/
theorem foldr_dropOperand {names : List String} (hnodup : names.Nodup) (as bs : List Addition) :
    (places names bs).foldr MetadataStore.dropOperand (groupsOf names (as ++ bs)) = groupsOf names as := by
  -- the last addition is the first to be undone, so the induction goes from the end
  induction bs using List.reverseRecOn with
  | nil => rw [List.append_nil]; rfl
  | append_singleton bs b ih =>
    have hlast : ([b].map fun a => names.idxOf a.group).foldr MetadataStore.dropOperand
        (groupsOf names (as ++ bs ++ [b])) = groupsOf names (as ++ bs) := dropOperand_groupsOf hnodup _ b
    rw [places, List.map_append, List.foldr_append, ← List.append_assoc, hlast]
    exact ih

theorem places_append (as bs : List Addition) : places (names (as ++ bs)) as = places (names as) as := by
  refine List.map_congr_left fun a ha => ?_
  rw [names_append, List.idxOf_append_of_mem (mem_names.2 ⟨a, ha, rfl⟩)]

end Addition

namespace MetadataStore

/-- When only groups at the end are empty, these are the ones that go. -/
theorem dropEmptyEnd_append {kept empties : List NamedGroup} (hkept : ∀ g ∈ kept, g.operands ≠ [])
    (hempties : ∀ g ∈ empties, g.operands = []) : dropEmptyEnd (kept ++ empties) = kept := by
  have hdrop : empties.reverse.dropWhile (·.operands.isEmpty) = [] :=
    List.dropWhile_eq_nil_iff.2 fun g hg => List.isEmpty_iff.2 (hempties g (List.mem_reverse.1 hg))
  have hkeep : kept.reverse.dropWhile (·.operands.isEmpty) = kept.reverse := by
    cases hlast : kept.reverse with
    | nil => rfl
    | cons g others =>
      have hg : g.operands ≠ [] := hkept g (List.mem_reverse.1 (hlast ▸ List.mem_cons_self))
      rw [List.dropWhile_cons, if_neg (by rw [List.isEmpty_iff]; exact hg)]
  rw [dropEmptyEnd, List.reverse_append, List.dropWhile_append, hdrop, List.isEmpty_nil, if_pos rfl, hkeep,
    List.reverse_reverse]

/-- Groups without an addition left are behind those that have one. -/
theorem dropEmptyEnd_groupsOf (as bs : List Addition) :
    dropEmptyEnd (Addition.groupsOf (Addition.names (as ++ bs)) as) = Addition.groups as := by
  have hnodup := Addition.nodup_names (as ++ bs)
  rw [Addition.names_append] at hnodup ⊢
  have hnew := (List.nodup_append.1 hnodup).2.2
  rw [Addition.groupsOf, List.map_append]
  refine dropEmptyEnd_append (fun g hg => ?_) fun g hg => ?_
  · obtain ⟨name, hname, rfl⟩ := List.mem_map.1 hg
    exact fun hnil => Addition.operandsOf_eq_nil_iff.1 hnil hname
  · obtain ⟨name, hname, rfl⟩ := List.mem_map.1 hg
    exact Addition.operandsOf_eq_nil_iff.2 fun hold => hnew name hold name hname rfl

end MetadataStore

/-- What a store has accepted and not taken back: nodes, and additions to groups. -/
structure MetadataLog where
  nodes : List MetadataNode := []
  additions : List Addition := []

namespace MetadataLog

/-- The store that the logs make. -/
def store (l : MetadataLog) : MetadataStore where
  nodes := l.nodes
  groups := Addition.groups l.additions
  journal := Addition.places (Addition.names l.additions) l.additions

def push (l : MetadataLog) (node : MetadataNode) : MetadataLog := { l with nodes := l.nodes ++ [node] }

def add (l : MetadataLog) (a : Addition) : MetadataLog := { l with additions := l.additions ++ [a] }

/-- The logs cut off at a mark. -/
def take (l : MetadataLog) (m : Mark) : MetadataLog := ⟨l.nodes.take m.nodes, l.additions.take m.operands⟩

variable (l : MetadataLog)

theorem mark_store : l.store.mark = ⟨l.nodes.length, l.additions.length⟩ := by
  rw [MetadataStore.mark, store, Addition.places, List.length_map]

theorem store_push (node : MetadataNode) : (l.push node).store = l.store.push node := rfl

/-- A group that is there keeps its place, and a new one comes last. -/
theorem placeOf_store (a : Addition) :
    l.store.placeOf a.group =
      ((Addition.names (l.additions ++ [a])).idxOf a.group,
        { l.store with groups := Addition.groupsOf (Addition.names (l.additions ++ [a])) l.additions }) := by
  have hfind : l.store.groups.findIdx? (·.name == a.group) =
      (Addition.names l.additions).findIdx? (· == a.group) := List.findIdx?_map
  rw [MetadataStore.placeOf, hfind, Addition.names_concat]
  by_cases hmem : a.group ∈ Addition.names l.additions
  · have hplace : (Addition.names l.additions).findIdx? (· == a.group) =
        some ((Addition.names l.additions).idxOf a.group) :=
      List.findIdx?_eq_some_of_exists ⟨_, hmem, beq_self_eq_true _⟩
    rw [hplace, if_pos hmem]
    rfl
  · have hplace : (Addition.names l.additions).findIdx? (· == a.group) = none :=
      List.findIdx?_eq_none_iff.2 fun name hname => beq_false_of_ne fun heq => hmem (heq ▸ hname)
    have hlength : l.store.groups.length = (Addition.names l.additions).length := List.length_map _
    have hgroups : Addition.groupsOf (Addition.names l.additions ++ [a.group]) l.additions =
        l.store.groups ++ [⟨a.group, []⟩] := by
      rw [Addition.groupsOf, List.map_append, List.map_singleton, Addition.operandsOf_eq_nil_iff.2 hmem]
      rfl
    rw [hplace, if_neg hmem, List.idxOf_append_of_notMem hmem, List.idxOf_cons_self, Nat.add_zero, hgroups,
      ← hlength]

theorem store_add (a : Addition) :
    (l.add a).store = (l.store.placeOf a.group).2.append (l.store.placeOf a.group).1 a.operand := by
  have hgroups := Addition.modify_groupsOf (Addition.nodup_names (l.additions ++ [a])) l.additions a
  have hjournal := Addition.places_append l.additions [a]
  rw [placeOf_store, MetadataStore.append, hgroups, store, store, ← hjournal]
  simp only [add, Addition.groups, Addition.places, List.map_append, List.map_singleton]

/-- **Rolling back cuts the logs off.** -/
theorem store_take (m : Mark) : (l.take m).store = l.store.rollback m := by
  have hsplit := List.take_append_drop m.operands l.additions
  have hnodup := Addition.nodup_names l.additions
  have hundone := Addition.foldr_dropOperand hnodup (l.additions.take m.operands) (l.additions.drop m.operands)
  have hend := MetadataStore.dropEmptyEnd_groupsOf (l.additions.take m.operands) (l.additions.drop m.operands)
  have hplaces := Addition.places_append (l.additions.take m.operands) (l.additions.drop m.operands)
  rw [hsplit] at hundone hend hplaces
  have hgroups : MetadataStore.dropEmptyEnd ((l.store.journal.drop m.operands).foldr
      MetadataStore.dropOperand l.store.groups) = Addition.groups (l.additions.take m.operands) := by
    rw [store, Addition.places, ← List.map_drop]
    exact (congrArg _ hundone).trans hend
  have hjournal : l.store.journal.take m.operands =
      Addition.places (Addition.names (l.additions.take m.operands)) (l.additions.take m.operands) := by
    rw [store, Addition.places, ← List.map_take]
    exact hplaces
  rw [MetadataStore.rollback, hgroups, hjournal]
  rfl

end MetadataLog

end TernBackend
