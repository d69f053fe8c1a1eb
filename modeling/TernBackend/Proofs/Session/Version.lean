import Mathlib.Data.List.Forall2
import TernBackend.Proofs.Except
import TernBackend.Proofs.Text.Blank
import TernBackend.Proofs.Text.Numeral
import TernBackend.Session.Basic

/-!
# Versions as texts

A version is spelled by one to three numerals with dots between them (`Spelled`). A text is read as a version just if
the version is spelled between the white space at its ends (`read_eq_ok_iff`); of any other text it is known what is
wrong with it (`Faulty`, `read_eq_error_iff`). What a version is written as is one of its spellings, so it is read
again whatever white space is put around it, and no two versions are written alike (`texts_of_versions`).
-/

namespace TernBackend.AbiVersion

open Text

/-- One to three numerals of 32 bits with dots between them, and the version that they stand for. -/
inductive Spelled : List Char → AbiVersion → Prop
  | major {x : List Char} {a : UInt32} (hx : IsNumeral x a.toNat) : Spelled x ⟨a, 0, 0⟩
  | minor {x y : List Char} {a b : UInt32} (hx : IsNumeral x a.toNat) (hy : IsNumeral y b.toNat) :
      Spelled (x ++ '.' :: y) ⟨a, b, 0⟩
  | patch {x y z : List Char} {a b c : UInt32} (hx : IsNumeral x a.toNat) (hy : IsNumeral y b.toNat)
      (hz : IsNumeral z c.toNat) : Spelled (x ++ '.' :: y ++ '.' :: z) ⟨a, b, c⟩

/-- What is wrong with a text that spells no version. The components behind the third are not looked at. -/
def Faulty (cs : List Char) : VersionFault → Prop
  | .empty => cs = []
  | .notUnsigned => cs ≠ [] ∧ ∃ piece ∈ (cs.splitOn '.').take 3, ∀ w : UInt32, ¬ IsNumeral piece w.toNat
  | .tooManyComponents =>
    3 < (cs.splitOn '.').length ∧ ∀ piece ∈ (cs.splitOn '.').take 3, ∃ w : UInt32, IsNumeral piece w.toNat

/-- The text stands for the version. -/
def HasText (v : AbiVersion) (s : String) : Prop := ∃ core, TrimsTo s.toList core ∧ Spelled core v

/-! ## Components -/

theorem components_eq_ok_iff {room : Nat} {pieces : List (List Char)} {ns : List UInt32} :
    components room pieces = .ok ns ↔
      pieces.length ≤ room ∧ List.Forall₂ (fun piece n => IsNumeral piece n.toNat) pieces ns := by
  induction pieces generalizing room ns with
  | nil => simp [components, eq_comm]
  | cons piece pieces ih =>
    cases room with
    | zero => simp [components]
    | succ room =>
      rw [components, List.forall₂_cons_left_iff, List.length_cons, Nat.add_le_add_iff_right]
      cases hword : word32? piece with
      | none =>
        refine iff_of_false nofun ?_
        rintro ⟨-, n, _, hn, -⟩
        exact word32?_eq_none_iff.1 hword n hn
      | some n =>
        have hn := word32?_eq_some_iff.1 hword
        rw [map_eq_ok_iff]
        constructor
        · rintro ⟨ns', hns', rfl⟩
          obtain ⟨hroom, hnumerals⟩ := ih.1 hns'
          exact ⟨hroom, n, ns', hn, hnumerals, rfl⟩
        · rintro ⟨hroom, n', ns', hn', hnumerals, rfl⟩
          obtain rfl : n = n' := Option.some.inj (hword.symm.trans (word32?_eq_some_iff.2 hn'))
          exact ⟨ns', ih.2 ⟨hroom, hnumerals⟩, rfl⟩

theorem components_eq_error_iff {room : Nat} {pieces : List (List Char)} {fault : VersionFault} :
    components room pieces = .error fault ↔
      (fault = .notUnsigned ∧ ∃ piece ∈ pieces.take room, ∀ w : UInt32, ¬ IsNumeral piece w.toNat) ∨
      (fault = .tooManyComponents ∧ room < pieces.length ∧
        ∀ piece ∈ pieces.take room, ∃ w : UInt32, IsNumeral piece w.toNat) := by
  induction pieces generalizing room with
  | nil => simp [components]
  | cons piece pieces ih =>
    cases room with
    | zero => simp [components, eq_comm]
    | succ room =>
      rw [components, List.take_succ_cons, List.length_cons, Nat.add_lt_add_iff_right]
      simp only [List.mem_cons, exists_eq_or_imp, forall_eq_or_imp]
      cases hword : word32? piece with
      | none =>
        have hnot := word32?_eq_none_iff.1 hword
        simp [hnot, eq_comm]
      | some n =>
        have hn : ∃ w : UInt32, IsNumeral piece w.toNat := ⟨n, word32?_eq_some_iff.1 hword⟩
        have hnot : ¬ ∀ w : UInt32, ¬ IsNumeral piece w.toNat := fun h => h n (word32?_eq_some_iff.1 hword)
        simp only [map_eq_error_iff, ih, hnot, hn, false_or, true_and]

/-! ## Spellings -/

/-- There is no white space in a spelling at all. -/
theorem Spelled.isTrimmed {cs : List Char} {v : AbiVersion} (h : Spelled cs v) : IsTrimmed cs := by
  have hdot : isBlank '.' = false := by decide
  refine .of_forall ?_
  cases h with
  | major hx => exact hx.not_isBlank
  | minor hx hy => exact List.forall_mem_append.2 ⟨hx.not_isBlank, List.forall_mem_cons.2 ⟨hdot, hy.not_isBlank⟩⟩
  | patch hx hy hz =>
    have hxy := List.forall_mem_append.2 ⟨hx.not_isBlank, List.forall_mem_cons.2 ⟨hdot, hy.not_isBlank⟩⟩
    exact List.forall_mem_append.2 ⟨hxy, List.forall_mem_cons.2 ⟨hdot, hz.not_isBlank⟩⟩

theorem spelled_chars (v : AbiVersion) : Spelled v.chars v :=
  .patch (isNumeral_decimal _) (isNumeral_decimal _) (isNumeral_decimal _)

/-- Numerals with dots between them come apart at the dots. -/
theorem splitOn_intercalate_numerals {pieces : List (List Char)} {ns : List UInt32} (hne : pieces ≠ [])
    (h : List.Forall₂ (fun piece n => IsNumeral piece n.toNat) pieces ns) :
    (['.'].intercalate pieces).splitOn '.' = pieces := by
  refine List.splitOn_intercalate '.' (fun piece hpiece hdot => ?_) hne
  obtain ⟨n, hn⟩ := exists_forall₂_iff.1 ⟨ns, h⟩ piece hpiece
  rcases hn.mem hdot with hdot | hdot
  · exact absurd hdot (by decide)
  · exact absurd hdot (by decide)

theorem spelled_iff {cs : List Char} {v : AbiVersion} :
    Spelled cs v ↔ ∃ pieces ns, cs = ['.'].intercalate pieces ∧ pieces ≠ [] ∧ pieces.length ≤ 3 ∧
      List.Forall₂ (fun piece n => IsNumeral piece n.toNat) pieces ns ∧ ofNumbers ns = v := by
  constructor
  · intro h
    cases h with
    | major hx => exact ⟨[cs], _, by simp [List.intercalate], by simp, by simp, .cons hx .nil, rfl⟩
    | @minor x y a b hx hy =>
      exact ⟨[x, y], _, by simp [List.intercalate], by simp, by simp, .cons hx (.cons hy .nil), rfl⟩
    | @patch x y z a b c hx hy hz =>
      exact ⟨[x, y, z], _, by simp [List.intercalate], by simp, by simp, .cons hx (.cons hy (.cons hz .nil)), rfl⟩
  · rintro ⟨pieces, ns, rfl, hne, hlength, hnumerals, rfl⟩
    cases hnumerals with
    | nil => exact absurd rfl hne
    | @cons x a _ _ hx hnumerals =>
      cases hnumerals with
      | nil => simpa [List.intercalate, ofNumbers] using Spelled.major hx
      | @cons y b _ _ hy hnumerals =>
        cases hnumerals with
        | nil => simpa [List.intercalate, ofNumbers] using Spelled.minor hx hy
        | @cons z c _ _ hz hnumerals =>
          cases hnumerals with
          | nil => simpa [List.intercalate, ofNumbers] using Spelled.patch hx hy hz
          | cons _ _ =>
            simp only [List.length_cons] at hlength
            omega

theorem Spelled.ne_nil {cs : List Char} {v : AbiVersion} (h : Spelled cs v) : cs ≠ [] := by
  cases h with
  | major hx => exact hx.ne_nil
  | minor hx hy => simp
  | patch hx hy hz => simp

/-! ## Reading -/

theorem ofChars_eq_ok_iff {cs : List Char} {v : AbiVersion} : ofChars cs = .ok v ↔ Spelled cs v := by
  unfold ofChars
  split
  next hnil => exact iff_of_false nofun fun h => h.ne_nil hnil
  next =>
    rw [map_eq_ok_iff, spelled_iff]
    simp only [components_eq_ok_iff]
    constructor
    · rintro ⟨ns, ⟨hlength, hnumerals⟩, rfl⟩
      exact ⟨_, ns, (List.intercalate_splitOn '.').symm, List.splitOn_ne_nil '.' cs, hlength, hnumerals, rfl⟩
    · rintro ⟨pieces, ns, rfl, hne, hlength, hnumerals, rfl⟩
      rw [splitOn_intercalate_numerals hne hnumerals]
      exact ⟨ns, ⟨hlength, hnumerals⟩, rfl⟩

theorem ofChars_eq_error_iff {cs : List Char} {fault : VersionFault} :
    ofChars cs = .error fault ↔ Faulty cs fault := by
  unfold ofChars
  split
  next hnil =>
    subst hnil
    cases fault <;> simp [Faulty]
  next hne =>
    rw [map_eq_error_iff, components_eq_error_iff]
    cases fault <;> simp [Faulty, hne]

theorem read_eq_ok_iff {s : String} {v : AbiVersion} : AbiVersion.read s = .ok v ↔ HasText v s := by
  have hcore : HasText v s ↔ Spelled (trim s.toList) v := by
    simp only [HasText, ← trim_eq_iff, exists_eq_left']
  rw [hcore, ← ofChars_eq_ok_iff, AbiVersion.read, parse]
  cases ofChars (trim s.toList) <;> simp [Except.mapError]

theorem read_eq_error_iff {s : String} {e : ConfigError} :
    AbiVersion.read s = .error e ↔
      ∃ core fault, TrimsTo s.toList core ∧ Faulty core fault ∧ e = .invalidAbiVersion s fault := by
  have hcore : (∃ core fault, TrimsTo s.toList core ∧ Faulty core fault ∧ e = .invalidAbiVersion s fault) ↔
      ∃ fault, ofChars (trim s.toList) = .error fault ∧ e = .invalidAbiVersion s fault := by
    simp only [← trim_eq_iff, ← ofChars_eq_error_iff, exists_and_left, exists_eq_left']
  rw [hcore, AbiVersion.read, parse]
  cases ofChars (trim s.toList) <;> simp [Except.mapError, eq_comm]

theorem hasText_text (v : AbiVersion) : HasText v v.text := by
  refine ⟨v.chars, ?_, spelled_chars v⟩
  rw [text, String.toList_ofList]
  exact (spelled_chars v).isTrimmed.trimsTo

theorem read_append_text (v : AbiVersion) {a b : String} (ha : AllBlank a.toList) (hb : AllBlank b.toList) :
    AbiVersion.read (a ++ v.text ++ b) = .ok v := by
  refine read_eq_ok_iff.2 ⟨v.chars, ⟨(spelled_chars v).isTrimmed, a.toList, b.toList, ha, hb, ?_⟩, spelled_chars v⟩
  simp [text, String.toList_append]

/-! ## The result -/

/-- **Versions as texts.** A text is read as a version just if the version is spelled between its white space. The
error of any other text carries the text as it is, and says what is wrong with what stands between its white space.
What a version is written as is read as that version, whatever white space is put around it, so no two versions are
written alike. -/
theorem texts_of_versions :
    (∀ s v, AbiVersion.read s = .ok v ↔ HasText v s) ∧
    (∀ s e, AbiVersion.read s = .error e ↔
      ∃ core fault, TrimsTo s.toList core ∧ Faulty core fault ∧ e = .invalidAbiVersion s fault) ∧
    (∀ (v : AbiVersion) (a b : String), AllBlank a.toList → AllBlank b.toList →
      AbiVersion.read (a ++ v.text ++ b) = .ok v) ∧
    Function.Injective text := by
  refine ⟨fun _ _ => read_eq_ok_iff, fun _ _ => read_eq_error_iff, fun v _ _ => read_append_text v, ?_⟩
  intro v w htext
  have hread : ∀ u : AbiVersion, AbiVersion.read u.text = .ok u := fun u => read_eq_ok_iff.2 (hasText_text u)
  exact Except.ok.inj ((hread v).symm.trans ((congrArg AbiVersion.read htext).trans (hread w)))

/-- A sign, a leading zero, a component that is missing and white space of two kinds. -/
theorem texts_of_versions_padded :
    AbiVersion.read "\u3000+01.2\n" = .ok ⟨1, 2, 0⟩ ∧
    AbiVersion.read "1.2.3.x" = .error (.invalidAbiVersion "1.2.3.x" .tooManyComponents) ∧
    AbiVersion.read ("\t" ++ text ⟨3, 0, 4294967295⟩ ++ "\u2003 ") = .ok ⟨3, 0, 4294967295⟩ := by
  obtain ⟨hread, herror, hwritten, -⟩ := texts_of_versions
  refine ⟨(hread _ _).2 ?_, (herror _ _).2 ?_, hwritten _ _ _ (by decide) (by decide)⟩
  · have hspelled : Spelled (['+', '0', '1'] ++ '.' :: ['2']) ⟨1, 2, 0⟩ :=
      .minor (word32?_eq_some_iff.1 (by decide)) (word32?_eq_some_iff.1 (by decide))
    exact ⟨_, ⟨hspelled.isTrimmed, ['\u3000'], ['\n'], by decide, by decide, rfl⟩, hspelled⟩
  · have hword : ∀ piece ∈ ("1.2.3.x".toList.splitOn '.').take 3, (word32? piece).isSome = true :=
      List.all_eq_true.1 (by decide)
    have hnumeral : ∀ piece ∈ ("1.2.3.x".toList.splitOn '.').take 3, ∃ w : UInt32, IsNumeral piece w.toNat :=
      fun piece hpiece =>
        have ⟨w, hw⟩ := Option.isSome_iff_exists.1 (hword piece hpiece)
        ⟨w, word32?_eq_some_iff.1 hw⟩
    exact ⟨"1.2.3.x".toList, .tooManyComponents, trim_eq_iff.1 (by decide), ⟨by decide, hnumeral⟩, rfl⟩

end TernBackend.AbiVersion
