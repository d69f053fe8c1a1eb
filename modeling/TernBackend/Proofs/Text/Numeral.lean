import TernBackend.Text.Blank
import TernBackend.Text.Numeral

/-!
# What is a numeral

A text is read as a number of 32 bits just when it is a numeral of that number (`word32?_eq_some_iff`), and what a
number is written as is a numeral of it (`isNumeral_decimal`).
-/

namespace TernBackend.Text

/-- A numeral and its number: decimal digits, at least one, with or without a plus sign in front. -/
def IsNumeral (cs : List Char) (n : Nat) : Prop :=
  ∃ digits : List Char, (cs = digits ∨ cs = '+' :: digits) ∧ digits ≠ [] ∧ (∀ c ∈ digits, c.isDigit = true) ∧
    Nat.ofDigitChars 10 digits 0 = n

theorem isNumeral_decimal (n : Nat) : IsNumeral (decimal n) n :=
  ⟨decimal n, .inl rfl, Nat.toDigits_ne_nil, fun _ hc => Nat.isDigit_of_mem_toDigits (by decide) (by decide) hc,
    Nat.ofDigitChars_ten_toDigits⟩

theorem IsNumeral.ne_nil {cs : List Char} {n : Nat} (h : IsNumeral cs n) : cs ≠ [] := by
  obtain ⟨digits, rfl | rfl, hne, -⟩ := h
  · exact hne
  · exact List.cons_ne_nil _ _

theorem IsNumeral.mem {cs : List Char} {n : Nat} (h : IsNumeral cs n) {c : Char} (hc : c ∈ cs) :
    c.isDigit = true ∨ c = '+' := by
  obtain ⟨digits, rfl | rfl, -, hdigits, -⟩ := h
  · exact .inl (hdigits c hc)
  · rcases List.mem_cons.1 hc with rfl | hc
    · exact .inr rfl
    · exact .inl (hdigits c hc)

theorem not_isBlank_of_isDigit {c : Char} (h : c.isDigit = true) : isBlank c = false := by
  have hc : 48 ≤ c.toNat ∧ c.toNat ≤ 57 := by simpa [Char.isDigit, UInt32.le_iff_toNat_le] using h
  simp [isBlank, blankRanges]
  omega

theorem IsNumeral.not_isBlank {cs : List Char} {n : Nat} (h : IsNumeral cs n) : ∀ c ∈ cs, isBlank c = false := by
  intro c hc
  rcases h.mem hc with hdigit | rfl
  · exact not_isBlank_of_isDigit hdigit
  · decide

theorem digitsValue?_eq_some_iff {cs : List Char} {n : Nat} :
    digitsValue? cs = some n ↔ cs ≠ [] ∧ (∀ c ∈ cs, c.isDigit = true) ∧ Nat.ofDigitChars 10 cs 0 = n := by
  rw [digitsValue?, ← List.all_eq_true]
  split
  next h => simp [h.1, h.2]
  next h => exact iff_of_false nofun fun hdigits => h ⟨hdigits.1, hdigits.2.1⟩

/-- A plus sign is not a digit, so what stands behind it is all that can be read. -/
theorem numeralValue?_eq_some_iff {cs : List Char} {n : Nat} :
    numeralValue? cs = some n ↔ IsNumeral cs n := by
  rw [numeralValue?, digitsValue?_eq_some_iff]
  constructor
  · intro hdigits
    refine ⟨unsigned cs, ?_, hdigits⟩
    unfold unsigned
    split
    · exact .inr rfl
    · exact .inl rfl
  · rintro ⟨digits, hcs, hdigits⟩
    have hunsigned : unsigned cs = digits := by
      rcases hcs with rfl | rfl
      · unfold unsigned
        split
        · exact absurd (hdigits.2.1 '+' List.mem_cons_self) (by decide)
        · rfl
      · rfl
    rw [hunsigned]
    exact hdigits

theorem word32?_eq_some_iff {cs : List Char} {w : UInt32} : word32? cs = some w ↔ IsNumeral cs w.toNat := by
  unfold word32?
  constructor
  · intro h
    split at h
    next n hn =>
      split at h
      next hlt =>
        obtain rfl := Option.some.inj h
        rw [UInt32.toNat_ofNat_of_lt' hlt]
        exact numeralValue?_eq_some_iff.1 hn
      next => cases h
    next => cases h
  · intro h
    rw [numeralValue?_eq_some_iff.2 h]
    simp only [if_pos w.toNat_lt_size, UInt32.ofNat_toNat]

theorem word32?_eq_none_iff {cs : List Char} : word32? cs = none ↔ ∀ w : UInt32, ¬ IsNumeral cs w.toNat := by
  simp only [← word32?_eq_some_iff]
  cases word32? cs <;> simp

end TernBackend.Text
