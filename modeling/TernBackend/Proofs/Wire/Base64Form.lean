import Mathlib
import TernBackend.Proofs.Wire.Base64
import TernBackend.Text.Blank

/-!
# What a written form is

Written forms are described here without writing or reading them: letters of the alphabet and then fill
characters, together a multiple of four, with nothing but zeros in the bits that belong to no byte (`IsForm`).
These are just the texts that are written for some bytes (`isForm_iff`). A text of letters and fill characters is
one in a single way, so it is enough to look at the numbers of its letters (`isForm_letters_iff`).
-/

namespace TernBackend.Base64

/-- The symbols as characters, each at the place of its number. -/
def alphabet : List Char := "ABCDEFGHIJKLMNOPQRSTUVWXYZabcdefghijklmnopqrstuvwxyz0123456789+/".toList

/-- The character of a number below 64. -/
def letter (n : Nat) : Char := alphabet.getD n '='

/-- The numbers of the letters in a written form, and how many fill characters follow them. For each fill
character, two bits of the last letter belong to no byte. -/
structure Shape (numbers : List Nat) (fills : Nat) : Prop where
  lt : ∀ n ∈ numbers, n < 64
  groups : (numbers.length + fills) % 4 = 0
  fills_le : fills ≤ 2
  zero : ∀ last ∈ numbers.getLast?, last % 4 ^ fills = 0

def IsForm (cs : List Char) : Prop :=
  ∃ numbers fills, Shape numbers fills ∧ cs = numbers.map letter ++ .replicate fills '='

/-! ## Letters -/

theorem length_alphabet : alphabet.length = 64 := by decide

theorem nodup_alphabet : alphabet.Nodup := by decide +kernel

theorem isBlank_alphabet {c : Char} (h : c ∈ alphabet) : Text.isBlank c = false := by
  have hall : alphabet.all (fun c => !Text.isBlank c) = true := by decide
  simpa using List.all_eq_true.1 hall c h

theorem letter_eq : ∀ n < 64, letter n = Char.ofNat (symbol n).toNat := by decide

theorem letter_ne_fill : ∀ n < 64, letter n ≠ '=' := by decide +kernel

theorem letter_eq_getElem {n : Nat} (h : n < alphabet.length) : letter n = alphabet[n] := by
  simp [letter, h]

theorem letter_mem {n : Nat} (h : n < 64) : letter n ∈ alphabet := by
  rw [← length_alphabet] at h
  simp [letter_eq_getElem h]

theorem idxOf_letter {n : Nat} (h : n < 64) : alphabet.idxOf (letter n) = n := by
  rw [← length_alphabet] at h
  rw [letter_eq_getElem h, nodup_alphabet.idxOf_getElem]

/-! ## Shapes -/

/-- A group of four letters in front makes no difference. -/
theorem shape_group_iff {w x y z : Nat} {numbers : List Nat} {fills : Nat} :
    Shape (w :: x :: y :: z :: numbers) fills ↔
      (w < 64 ∧ x < 64 ∧ y < 64 ∧ z < 64) ∧ Shape numbers fills := by
  constructor
  · rintro ⟨hlt, hgroups, hfills, hzero⟩
    simp only [List.mem_cons, forall_eq_or_imp, List.length_cons] at hlt hgroups
    obtain ⟨hw, hx, hy, hz, hlt⟩ := hlt
    refine ⟨⟨hw, hx, hy, hz⟩, hlt, by omega, hfills, ?_⟩
    cases numbers with
    | nil => simp
    | cons n numbers => simpa using hzero
  · rintro ⟨⟨hw, hx, hy, hz⟩, hlt, hgroups, hfills, hzero⟩
    refine ⟨?_, by simp only [List.length_cons]; omega, hfills, ?_⟩
    · simp only [List.mem_cons, forall_eq_or_imp]
      exact ⟨hw, hx, hy, hz, hlt⟩
    · cases numbers with
      | nil =>
        -- nothing follows the group, so there are no fill characters
        obtain rfl : fills = 0 := by
          simp only [List.length_nil] at hgroups
          omega
        simp [Nat.mod_one]
      | cons n numbers => simpa using hzero

/-- What is written has the shape of a written form. -/
theorem exists_shape_encode : ∀ bs : Bytes, ∃ numbers fills, Shape numbers fills ∧
    encode bs = numbers.map symbol ++ .replicate fills fill
  | [] => ⟨[], 0, ⟨by simp, by simp, by simp, by simp⟩, rfl⟩
  | [a] => by
    have ha := a.toNat_lt
    refine ⟨[a.toNat / 4, a.toNat % 4 * 16], 2, ⟨?_, by simp, by simp, by simp⟩, rfl⟩
    simp only [List.mem_cons, forall_eq_or_imp, List.not_mem_nil, false_imp_iff, implies_true, and_true]
    omega
  | [a, b] => by
    have ha := a.toNat_lt
    have hb := b.toNat_lt
    refine ⟨[a.toNat / 4, a.toNat % 4 * 16 + b.toNat / 16, b.toNat % 16 * 4], 1,
      ⟨?_, by simp, by simp, by simp⟩, rfl⟩
    simp only [List.mem_cons, forall_eq_or_imp, List.not_mem_nil, false_imp_iff, implies_true, and_true]
    omega
  | a :: b :: c :: rest => by
    have ha := a.toNat_lt
    have hb := b.toNat_lt
    have hc := c.toNat_lt
    obtain ⟨numbers, fills, hshape, hrest⟩ := exists_shape_encode rest
    refine ⟨_, fills, shape_group_iff.2 ⟨⟨?_, ?_, ?_, ?_⟩, hshape⟩, by rw [encode, hrest]; rfl⟩ <;> omega

/-- Whatever has the shape of a written form is written for some bytes. -/
theorem exists_encode_of_shape : ∀ {numbers : List Nat} {fills : Nat}, Shape numbers fills →
    ∃ bs, encode bs = numbers.map symbol ++ .replicate fills fill
  | [], fills, h => by
    obtain ⟨-, hgroups, hfills, -⟩ := h
    obtain rfl : fills = 0 := by
      simp only [List.length_nil] at hgroups
      omega
    exact ⟨[], rfl⟩
  | [w], fills, h => by
    obtain ⟨-, hgroups, hfills, -⟩ := h
    simp only [List.length_singleton] at hgroups
    omega
  | [w, x], fills, h => by
    obtain ⟨hlt, hgroups, hfills, hzero⟩ := h
    obtain rfl : fills = 2 := by
      simp only [List.length_cons, List.length_nil] at hgroups
      omega
    exact ⟨_, encode_one (hlt w (by simp)) (hlt x (by simp)) (hzero x (by simp))⟩
  | [w, x, y], fills, h => by
    obtain ⟨hlt, hgroups, hfills, hzero⟩ := h
    obtain rfl : fills = 1 := by
      simp only [List.length_cons, List.length_nil] at hgroups
      omega
    exact ⟨_, encode_two (hlt w (by simp)) (hlt x (by simp)) (hlt y (by simp)) (hzero y (by simp))⟩
  | w :: x :: y :: z :: numbers, fills, h => by
    obtain ⟨⟨hw, hx, hy, hz⟩, h⟩ := shape_group_iff.1 h
    obtain ⟨bs, hbs⟩ := exists_encode_of_shape h
    exact ⟨_, by rw [encode_group hw hx hy hz bs, hbs]; rfl⟩

/-! ## Forms -/

/-- Symbols and fill characters as a text. -/
theorem map_symbols {numbers : List Nat} (h : ∀ n ∈ numbers, n < 64) (fills : Nat) :
    (numbers.map symbol ++ .replicate fills fill).map (fun b => Char.ofNat b.toNat) =
      numbers.map letter ++ .replicate fills '=' := by
  have hletters : numbers.map (fun n => Char.ofNat (symbol n).toNat) = numbers.map letter :=
    List.map_congr_left fun n hn => (letter_eq n (h n hn)).symm
  rw [List.map_append, List.map_map, List.map_replicate]
  exact congrArg (· ++ _) hletters

/-- The written forms are what is written for some bytes. -/
theorem isForm_iff {s : String} : IsForm s.toList ↔ ∃ bs, text bs = s := by
  constructor
  · rintro ⟨numbers, fills, hshape, hs⟩
    obtain ⟨bs, hbs⟩ := exists_encode_of_shape hshape
    refine ⟨bs, ?_⟩
    rw [text, hbs, map_symbols hshape.lt, ← hs, String.ofList_toList]
  · rintro ⟨bs, rfl⟩
    obtain ⟨numbers, fills, hshape, hbs⟩ := exists_shape_encode bs
    refine ⟨numbers, fills, hshape, ?_⟩
    rw [text, String.toList_ofList, hbs, map_symbols hshape.lt]

theorem IsForm.mem {cs : List Char} (h : IsForm cs) {c : Char} (hc : c ∈ cs) : c ∈ alphabet ∨ c = '=' := by
  obtain ⟨numbers, fills, hshape, rfl⟩ := h
  rcases List.mem_append.1 hc with hc | hc
  · obtain ⟨n, hn, rfl⟩ := List.mem_map.1 hc
    exact .inl (letter_mem (hshape.lt n hn))
  · exact .inr (List.eq_of_mem_replicate hc)

theorem IsForm.not_isBlank {cs : List Char} (h : IsForm cs) {c : Char} (hc : c ∈ cs) : Text.isBlank c = false := by
  rcases h.mem hc with hmem | rfl
  · exact isBlank_alphabet hmem
  · decide

/-- The numbers of the letters and the count of the fill characters can be told from the text. -/
theorem letters_inj {numbers numbers' : List Nat} {fills fills' : Nat} (h : ∀ n ∈ numbers, n < 64)
    (h' : ∀ n ∈ numbers', n < 64)
    (heq : numbers.map letter ++ .replicate fills '=' = numbers'.map letter ++ .replicate fills' '=') :
    numbers = numbers' ∧ fills = fills' := by
  have hcount : ∀ {ns : List Nat}, (∀ n ∈ ns, n < 64) → (ns.map letter).count '=' = 0 := by
    intro ns hns
    refine List.count_eq_zero.2 fun hmem => ?_
    obtain ⟨n, hn, hletter⟩ := List.mem_map.1 hmem
    exact letter_ne_fill n (hns n hn) hletter
  have hnumbers : ∀ {ns : List Nat}, (∀ n ∈ ns, n < 64) → (ns.map letter).map alphabet.idxOf = ns := by
    intro ns hns
    rw [List.map_map]
    exact (List.map_congr_left fun n hn => idxOf_letter (hns n hn)).trans (List.map_id ns)
  have hfills : fills = fills' := by
    simpa [hcount h, hcount h'] using congrArg (List.count '=') heq
  rw [hfills] at heq
  refine ⟨?_, hfills⟩
  rw [← hnumbers h, ← hnumbers h', List.append_cancel_right heq]

theorem isForm_letters_iff {numbers : List Nat} (h : ∀ n ∈ numbers, n < 64) (fills : Nat) :
    IsForm (numbers.map letter ++ .replicate fills '=') ↔ Shape numbers fills := by
  constructor
  · rintro ⟨numbers', fills', hshape, heq⟩
    obtain ⟨rfl, rfl⟩ := letters_inj h hshape.lt heq
    exact hshape
  · intro hshape
    exact ⟨numbers, fills, hshape, rfl⟩

end TernBackend.Base64
