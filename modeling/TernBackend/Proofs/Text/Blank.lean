import Mathlib.Data.List.DropRight
import TernBackend.Text.Blank

/-!
# What trimming leaves

Trimming a text leaves what stands between white space and does not begin or end with it. This is said without
removing anything (`TrimsTo`), and there is just one such text (`trim_eq_iff`).
-/

namespace TernBackend.Text

/-- The text is white space only. -/
def AllBlank (cs : List Char) : Prop := ∀ c ∈ cs, isBlank c = true

instance (cs : List Char) : Decidable (AllBlank cs) := decidable_of_iff (cs.all isBlank = true) List.all_eq_true

/-- The text neither begins nor ends with white space. -/
structure IsTrimmed (cs : List Char) : Prop where
  head : ∀ c ∈ cs.head?, isBlank c = false
  last : ∀ c ∈ cs.getLast?, isBlank c = false

/-- `core` is what stands between the white space at both ends of `cs`. -/
def TrimsTo (cs core : List Char) : Prop :=
  IsTrimmed core ∧ ∃ before after, AllBlank before ∧ AllBlank after ∧ cs = before ++ core ++ after

theorem IsTrimmed.of_forall {cs : List Char} (h : ∀ c ∈ cs, isBlank c = false) : IsTrimmed cs :=
  ⟨fun c hc => h c (List.mem_of_mem_head? hc), fun c hc => h c (List.mem_of_mem_getLast? hc)⟩

theorem IsTrimmed.trimsTo {cs : List Char} (h : IsTrimmed cs) : TrimsTo cs cs :=
  ⟨h, [], [], nofun, nofun, by rw [List.nil_append, List.append_nil]⟩

theorem AllBlank.reverse {cs : List Char} (h : AllBlank cs) : AllBlank cs.reverse :=
  fun c hc => h c (List.mem_reverse.1 hc)

/-! ## One end -/

theorem trimStart_append {before : List Char} (h : AllBlank before) (cs : List Char) :
    trimStart (before ++ cs) = trimStart cs :=
  List.dropWhile_append_of_pos h

theorem trimStart_eq_self {cs : List Char} (h : ∀ c ∈ cs.head?, isBlank c = false) : trimStart cs = cs := by
  cases cs with
  | nil => rfl
  | cons c cs => exact List.dropWhile_cons_of_neg (by simp [h c rfl])

theorem head_trimStart {cs : List Char} {c : Char} (h : c ∈ (trimStart cs).head?) : isBlank c = false := by
  have hhead := List.head?_dropWhile_not isBlank cs
  rw [trimStart, Option.mem_def] at h
  rw [h] at hhead
  simpa using hhead

theorem exists_append_trimStart (cs : List Char) : ∃ before, AllBlank before ∧ cs = before ++ trimStart cs :=
  ⟨cs.takeWhile isBlank, fun _ hc => List.mem_takeWhile_imp hc, List.takeWhile_append_dropWhile.symm⟩

/-! ## The other end, by reading backwards -/

theorem trimEnd_eq (cs : List Char) : trimEnd cs = (trimStart cs.reverse).reverse := rfl

theorem trimEnd_append {after : List Char} (h : AllBlank after) (cs : List Char) :
    trimEnd (cs ++ after) = trimEnd cs := by
  rw [trimEnd_eq, List.reverse_append, trimStart_append h.reverse, ← trimEnd_eq]

theorem trimEnd_eq_self {cs : List Char} (h : ∀ c ∈ cs.getLast?, isBlank c = false) : trimEnd cs = cs := by
  rw [trimEnd_eq, trimStart_eq_self (by rwa [List.head?_reverse]), List.reverse_reverse]

theorem last_trimEnd {cs : List Char} {c : Char} (h : c ∈ (trimEnd cs).getLast?) : isBlank c = false := by
  rw [trimEnd_eq, List.getLast?_reverse] at h
  exact head_trimStart h

theorem exists_trimEnd_append (cs : List Char) : ∃ after, AllBlank after ∧ cs = trimEnd cs ++ after := by
  obtain ⟨before, hbefore, hcs⟩ := exists_append_trimStart cs.reverse
  refine ⟨before.reverse, hbefore.reverse, ?_⟩
  rw [trimEnd_eq, ← List.reverse_append, ← hcs, List.reverse_reverse]

/-! ## Both ends -/

theorem trimsTo_trim (cs : List Char) : TrimsTo cs (trim cs) := by
  obtain ⟨before, hbefore, hstart⟩ := exists_append_trimStart cs
  obtain ⟨after, hafter, hend⟩ := exists_trimEnd_append (trimStart cs)
  refine ⟨⟨fun c hc => ?_, fun _ => last_trimEnd⟩, before, after, hbefore, hafter, ?_⟩
  · have hc : (trimEnd (trimStart cs)).head? = some c := hc
    have hhead : (trimStart cs).head? = some c := by
      rw [hend, List.head?_append, hc]
      rfl
    exact head_trimStart hhead
  · rw [trim, List.append_assoc, ← hend, ← hstart]

theorem TrimsTo.trim_eq {cs core : List Char} (h : TrimsTo cs core) : trim cs = core := by
  obtain ⟨htrimmed, before, after, hbefore, hafter, rfl⟩ := h
  rw [trim, List.append_assoc, trimStart_append hbefore]
  cases core with
  | nil =>
    have hnil : trimStart after = [] := List.dropWhile_eq_nil_iff.2 hafter
    rw [List.nil_append, hnil]
    rfl
  | cons c cs =>
    rw [trimStart_eq_self (by simpa using htrimmed.head), trimEnd_append hafter, trimEnd_eq_self htrimmed.last]

theorem trim_eq_iff {cs core : List Char} : trim cs = core ↔ TrimsTo cs core :=
  ⟨fun h => h ▸ trimsTo_trim cs, TrimsTo.trim_eq⟩

theorem isTrimmed_iff {cs : List Char} : IsTrimmed cs ↔ trim cs = cs :=
  ⟨fun h => h.trimsTo.trim_eq, fun h => (trim_eq_iff.1 h).1⟩

instance (cs : List Char) : Decidable (IsTrimmed cs) := decidable_of_iff (trim cs = cs) isTrimmed_iff.symm

end TernBackend.Text
