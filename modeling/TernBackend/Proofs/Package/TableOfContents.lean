import TernBackend.Proofs.Container.Format
import TernBackend.Proofs.Wire.Base64Form

/-!
# The two forms of a table of contents

A table of contents keeps its bytes and their written form, and either of them gives the other. So bytes and
written forms correspond one to one, and a text that is not just the written form of some bytes is no table of
contents: `forms_agree` goes through the ways in which a text can miss.
-/

namespace TernBackend.TableOfContents

theorem exists_ofEncoded_iff {encoded : String} :
    (∃ t, ofEncoded encoded = .ok t) ↔ ∃ bytes, (ofBytes bytes).encoded = encoded := by
  constructor
  · rintro ⟨t, h⟩
    obtain ⟨rfl, ht⟩ := ofEncoded_eq_ok_iff.1 h
    exact ⟨t.bytes, congrArg TableOfContents.encoded ht⟩
  · rintro ⟨bytes, rfl⟩
    exact ⟨_, ofEncoded_ofBytes bytes⟩

theorem exists_ofEncoded_iff_isForm {encoded : String} :
    (∃ t, ofEncoded encoded = .ok t) ↔ Base64.IsForm encoded.toList :=
  exists_ofEncoded_iff.trans Base64.isForm_iff.symm

theorem exists_error_of_not_isForm {encoded : String} (h : ¬ Base64.IsForm encoded.toList) :
    ∃ fault, ofEncoded encoded = .error fault := by
  cases hread : ofEncoded encoded with
  | error fault => exact ⟨fault, rfl⟩
  | ok t => exact absurd (exists_ofEncoded_iff_isForm.1 ⟨t, hread⟩) h

theorem encoded_injective {bytes bytes' : Bytes} (h : (ofBytes bytes).encoded = (ofBytes bytes').encoded) :
    bytes = bytes' := by
  have hread := ofEncoded_ofBytes bytes
  rw [h, ofEncoded_ofBytes, Except.ok.injEq] at hread
  exact (congrArg TableOfContents.bytes hread).symm

/-- **The two forms of a table of contents always agree.** The written form of any bytes is accepted and gives
back the table of contents of these bytes; whatever is accepted keeps the text that it was read from, and is the
table of contents of its own bytes; and no two byte sequences have the same written form. What is accepted are
just the written forms of base64. Hence a text with white space or any other character from outside the alphabet is
refused. For letters that are followed by fill characters it is the numbers that decide: together they must be a
multiple of four, with two fill characters at most, and in the last letter two bits must be zero for each of these.
Every other count of fill characters and every other last letter is refused. -/
theorem forms_agree :
    (∀ bytes, ofEncoded (ofBytes bytes).encoded = .ok (ofBytes bytes)) ∧
    (∀ encoded t, ofEncoded encoded = .ok t → t.encoded = encoded ∧ ofBytes t.bytes = t) ∧
    (∀ bytes bytes', (ofBytes bytes).encoded = (ofBytes bytes').encoded → bytes = bytes') ∧
    (∀ encoded, (∃ t, ofEncoded encoded = .ok t) ↔ Base64.IsForm encoded.toList) ∧
    (∀ encoded c, c ∈ encoded.toList → Text.isBlank c ∨ (c ∉ Base64.alphabet ∧ c ≠ '=') →
      ∃ fault, ofEncoded encoded = .error fault) ∧
    (∀ (numbers : List Nat) (fills : Nat), (∀ n ∈ numbers, n < 64) →
      ((∃ t, ofEncoded (.ofList (numbers.map Base64.letter ++ .replicate fills '=')) = .ok t) ↔
        (numbers.length + fills) % 4 = 0 ∧ fills ≤ 2 ∧ ∀ last ∈ numbers.getLast?, last % 4 ^ fills = 0)) := by
  refine ⟨ofEncoded_ofBytes, fun encoded t => ofEncoded_eq_ok_iff.1, fun bytes bytes' => encoded_injective,
    fun encoded => exists_ofEncoded_iff_isForm, ?_, ?_⟩
  · intro encoded c hc hother
    refine exists_error_of_not_isForm fun hform => ?_
    rcases hother with hblank | ⟨hletter, hfill⟩
    · rw [hform.not_isBlank hc] at hblank
      cases hblank
    · exact (hform.mem hc).elim hletter hfill
  · intro numbers fills hlt
    rw [exists_ofEncoded_iff_isForm, String.toList_ofList, Base64.isForm_letters_iff hlt]
    constructor
    · rintro ⟨-, hgroups, hfills, hzero⟩
      exact ⟨hgroups, hfills, hzero⟩
    · rintro ⟨hgroups, hfills, hzero⟩
      exact ⟨hlt, hgroups, hfills, hzero⟩

/-- A written form with its fill character, without it and with one more, with a bit set that belongs to no byte,
and with a blank. -/
theorem forms_agree_misfilled :
    ofEncoded "QUI=" = .ok (ofBytes [65, 66]) ∧ (¬ ∃ t, ofEncoded "QUI" = .ok t) ∧
      (¬ ∃ t, ofEncoded "QUI==" = .ok t) ∧ (¬ ∃ t, ofEncoded "QUJ=" = .ok t) ∧
      ∃ fault, ofEncoded "QU I" = .error fault := by
  obtain ⟨hwritten, -, -, -, hother, hletters⟩ := forms_agree
  refine ⟨hwritten [65, 66], fun h => ?_, fun h => ?_, fun h => ?_, hother "QU I" ' ' (by decide) (.inl (by decide))⟩
  · exact absurd ((hletters [16, 20, 8] 0 (by decide)).1 h).1 (by decide)
  · exact absurd ((hletters [16, 20, 8] 2 (by decide)).1 h).1 (by decide)
  · exact absurd (((hletters [16, 20, 9] 1 (by decide)).1 h).2.2 9 rfl) (by decide)

end TernBackend.TableOfContents
