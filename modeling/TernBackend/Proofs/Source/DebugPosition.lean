import Mathlib.Algebra.Order.Ring.Nat
import TernBackend.Proofs.Source.Lines
import TernBackend.Proofs.Text.Pieces

/-!
# Debug positions against the lines of a text

A place in a list of lines is a line of it and an offset in this line or just behind it (`IsPlace`). The line table
gives every offset its place in the lines of the text (`LineTable.isPlace_position`), so the offset can be added up
again from the lines before, and of two offsets the later one has the later place (`IsPlace.lex`).

In debug information both numbers are counted from one and none is above the largest number there is. Therefore all
this holds of them too (`debugPosition_identifies`), except at the very end of a text of the greatest size, where the
column after the last would be too large (`debugPosition_longest_line`).
-/

namespace TernBackend

/-! ## Places in lines -/

/-- Where a line starts: behind the lines before it, each with its newline. -/
def lineStart (lines : List (List Char)) (i : Nat) : Nat := ((lines.take i).map fun l => l.length + 1).sum

section

variable {lines : List (List Char)}

@[simp] theorem lineStart_zero : lineStart lines 0 = 0 := rfl

@[simp] theorem lineStart_cons_succ (l : List Char) (i : Nat) :
    lineStart (l :: lines) (i + 1) = l.length + 1 + lineStart lines i := rfl

theorem lineStart_succ {i : Nat} (h : i < lines.length) :
    lineStart lines (i + 1) = lineStart lines i + ((lines.getD i []).length + 1) := by
  rw [lineStart, List.take_add_one, List.getElem?_eq_getElem h, List.getD_eq_getElem lines [] h,
    Option.toList_some, List.map_append, List.sum_append]
  rfl

/-- Every line takes at least its newline. -/
theorem add_sub_le_lineStart {i j : Nat} (hij : i ≤ j) (hj : j ≤ lines.length) :
    lineStart lines i + (j - i) ≤ lineStart lines j := by
  induction j, hij using Nat.le_induction with
  | base => omega
  | succ j hij ih =>
    have hprev := ih (by omega)
    rw [lineStart_succ hj]
    omega

/-- A line and a column that lead to an offset. A column may be just past the end of its line, where the newline
is or the text ends. -/
structure IsPlace (lines : List (List Char)) (offset line column : Nat) : Prop where
  lt : line < lines.length
  le : column ≤ (lines.getD line []).length
  sum : lineStart lines line + column = offset

variable {offset offset' line line' column column' : Nat}

theorem IsPlace.lt_lineStart_succ (h : IsPlace lines offset line column) :
    offset < lineStart lines (line + 1) := by
  have hle := h.le
  have hsum := h.sum
  rw [lineStart_succ h.lt]
  omega

/-- There are no more lines in front of a place than characters. -/
theorem IsPlace.line_le (h : IsPlace lines offset line column) : line + column ≤ offset := by
  have hle := add_sub_le_lineStart (Nat.zero_le line) (Nat.le_of_lt h.lt)
  have hsum := h.sum
  rw [lineStart_zero] at hle
  omega

/-- Later offsets have later places. -/
theorem IsPlace.lex (h : IsPlace lines offset line column) (h' : IsPlace lines offset' line' column')
    (hlt : offset < offset') : line < line' ∨ line = line' ∧ column < column' := by
  have hsum := h.sum
  have hsum' := h'.sum
  rcases Nat.lt_trichotomy line line' with hline | rfl | hline
  · exact .inl hline
  · exact .inr ⟨rfl, by omega⟩
  -- the line of the later offset would end before the other line starts
  · have hnext := h'.lt_lineStart_succ
    have hmono : lineStart lines (line' + 1) + (line - (line' + 1)) ≤ lineStart lines line :=
      add_sub_le_lineStart hline (Nat.le_of_lt h.lt)
    omega

end

/-! ## The lines of a table -/

namespace LineTable

/-- The starts of lines are the sums of the lengths of the lines before them. -/
theorem getD_cons_startsAfter (offset : Nat) :
    ∀ (cs : List Char) (i : Nat), i < (cs.splitOn '\n').length →
      (offset :: startsAfter offset cs).getD i 0 = offset + lineStart (cs.splitOn '\n') i
  | _, 0, _ => rfl
  | [], i + 1, h => absurd h (by simp)
  | c :: cs, i + 1, h => by
    rw [List.splitOn_cons_eq_if_modifyHead] at h ⊢
    by_cases hc : c = '\n'
    · subst hc
      rw [if_pos (beq_self_eq_true _)] at h ⊢
      have ih := getD_cons_startsAfter (offset + 1) cs i (Nat.lt_of_succ_lt_succ h)
      rw [startsAfter, if_pos rfl, List.getD_cons_succ, ih, lineStart_cons_succ, List.length_nil]
      omega
    · rw [if_neg (by simpa using hc)] at h ⊢
      have ih := getD_cons_startsAfter (offset + 1) cs (i + 1) (by simpa using h)
      obtain ⟨l, ls, hls⟩ := List.exists_cons_of_ne_nil (List.splitOn_ne_nil '\n' cs)
      rw [List.getD_cons_succ, hls, lineStart_cons_succ] at ih
      rw [startsAfter, if_neg hc, List.getD_cons_succ, ih, hls, List.modifyHead_cons, lineStart_cons_succ,
        List.length_cons]
      omega

/-- All lines together are the text, with a newline more. -/
theorem lineStart_length_splitOn :
    ∀ cs : List Char, lineStart (cs.splitOn '\n') (cs.splitOn '\n').length = cs.length + 1
  | [] => rfl
  | c :: cs => by
    have ih := lineStart_length_splitOn cs
    rw [List.splitOn_cons_eq_if_modifyHead]
    by_cases hc : c = '\n'
    · rw [if_pos (by simpa using hc), List.length_cons, lineStart_cons_succ, ih, List.length_nil, List.length_cons]
      omega
    · obtain ⟨l, ls, hls⟩ := List.exists_cons_of_ne_nil (List.splitOn_ne_nil '\n' cs)
      rw [hls, List.length_cons, lineStart_cons_succ] at ih
      rw [if_neg (by simpa using hc), hls, List.modifyHead_cons, List.length_cons, lineStart_cons_succ,
        List.length_cons, List.length_cons]
      omega

theorem lineCount_eq_length_splitOn (cs : List Char) : (ofChars cs).lineCount = (cs.splitOn '\n').length := by
  rw [lineCount_ofChars, length_splitOn]

theorem getD_starts {cs : List Char} {i : Nat} (h : i < (ofChars cs).lineCount) :
    (ofChars cs).starts.getD i 0 = lineStart (cs.splitOn '\n') i := by
  rw [lineCount_eq_length_splitOn] at h
  rw [ofChars, getD_toArray, getD_cons_startsAfter 0 cs i h, Nat.zero_add]

/-- A lookup gives the place of the offset, or that of the end of the text. -/
theorem isPlace_position (cs : List Char) (offset : Nat) :
    IsPlace (cs.splitOn '\n') (min offset cs.length) ((ofChars cs).position offset).1
      ((ofChars cs).position offset).2 := by
  let k := min offset cs.length
  let line := (ofChars cs).lineAt k
  have hline : (ofChars cs).IsLineAt k line := isLineAt_lineAt cs k
  have hlt : line < (cs.splitOn '\n').length := lineCount_eq_length_splitOn cs ▸ hline.lt
  have hle : lineStart (cs.splitOn '\n') line ≤ k := getD_starts hline.lt ▸ hline.le
  have hend : k ≤ lineStart (cs.splitOn '\n') line + ((cs.splitOn '\n').getD line []).length := by
    have hsucc := lineStart_succ hlt
    -- the next line starts behind the offset; behind the last line the text ends
    by_cases hlast : line + 1 < (ofChars cs).lineCount
    · have hnext := hline.next (line + 1) (Nat.lt_succ_self line) hlast
      rw [getD_starts hlast] at hnext
      omega
    · have hlength : line + 1 = (cs.splitOn '\n').length := by
        rw [lineCount_eq_length_splitOn] at hlast
        omega
      have htotal := lineStart_length_splitOn cs
      rw [← hlength] at htotal
      omega
  have hposition : (ofChars cs).position offset = (line, k - lineStart (cs.splitOn '\n') line) := by
    rw [← getD_starts hline.lt]
    rfl
  rw [hposition]
  exact ⟨hlt, Nat.sub_le_iff_le_add'.2 hend, Nat.add_sub_cancel' hle⟩

/-- In a text of one line the column is the offset. -/
theorem position_of_no_newline {cs : List Char} (h : '\n' ∉ cs) (offset : Nat) :
    (ofChars cs).position offset = (0, min offset cs.length) := by
  have hplace := isPlace_position cs offset
  rw [List.splitOn_eq_singleton h] at hplace
  have hline : ((ofChars cs).position offset).1 = 0 := Nat.lt_one_iff.1 hplace.lt
  have hsum := hplace.sum
  rw [hline, lineStart_zero, Nat.zero_add] at hsum
  exact Prod.ext hline hsum

end LineTable

/-! ## Numbers in debug information -/

/-- The line and the column of an offset, as debug information has them. -/
def LineIndex.debugPosition (index : LineIndex) (offset : Int) : Int × Int :=
  (index.debugLine offset, index.debugColumn offset)

theorem LineIndex.debugPosition_of_neg (index : LineIndex) {offset : Int} (h : offset < 0) :
    index.debugPosition offset = (-1, -1) := by
  obtain ⟨n, rfl⟩ := Int.eq_negSucc_of_lt_zero h
  rfl

namespace LineTable

theorem debugPosition_natCast (table : LineTable) (n : Nat) :
    table.toIndex.debugPosition n =
      (min (((table.position n).1 : Int) + 1) maxPosition, min (((table.position n).2 : Int) + 1) maxPosition) :=
  rfl

/-- An offset past the end is taken for the end. -/
theorem position_of_length_le {table : LineTable} {offset : Nat} (h : table.length ≤ offset) :
    table.position offset = table.position table.length := by
  rw [position, position, Nat.min_eq_right h, Nat.min_self]

variable {cs : List Char}

/-- Below the largest number nothing is cut off. -/
theorem debugPosition_of_lt {n : Nat} (h : ((min n cs.length : Nat) : Int) < maxPosition) :
    (ofChars cs).toIndex.debugPosition n =
      ((((ofChars cs).position n).1 : Int) + 1, (((ofChars cs).position n).2 : Int) + 1) := by
  have hplace := isPlace_position cs n
  have hline := hplace.line_le
  have hsum := hplace.sum
  rw [debugPosition_natCast, Int.min_eq_left (by omega), Int.min_eq_left (by omega)]

/-- The line is one of the text, and the column is in it or just past its end. The number of the line is cut off only
behind 2⁶³ - 1 newlines, and then there is nothing else in the text and the column is the first. -/
theorem debugPosition_bounds (hsize : cs.length < 2 ^ 63) (n : Nat) :
    let position := (ofChars cs).toIndex.debugPosition n
    1 ≤ position.1 ∧ position.1 ≤ (ofChars cs).lineCount ∧ 1 ≤ position.2 ∧
      position.2 ≤ ((cs.splitOn '\n').getD (position.1 - 1).toNat []).length + 1 := by
  intro position
  have hplace := isPlace_position cs n
  have hline := hplace.line_le
  have hsum := hplace.sum
  have hlt := hplace.lt
  have hle := hplace.le
  have hposition : position = _ := debugPosition_natCast (ofChars cs) n
  rw [hposition, lineCount_eq_length_splitOn]
  generalize ((ofChars cs).position n).1 = line at *
  generalize ((ofChars cs).position n).2 = column at *
  by_cases hcut : (line : Int) + 1 ≤ maxPosition
  · have hindex : ((line : Int) + 1 - 1).toNat = line := by omega
    rw [Int.min_eq_left hcut, hindex]
    unfold maxPosition
    omega
  -- so many lines leave no room for a character, so the column is the first
  · unfold maxPosition at *
    omega

end LineTable

/-- **Debug positions identify source positions.** In a text of fewer than 2⁶³ characters: before its start nothing
is known; offsets past its end are given the position of the end; and from its start on the line is one of the text
and the column one in this line or just past its end, both counted from one. As long as the offset is less than the
largest number there is, a later offset in the text has a later position, and a position tells the offset: it is
what the lines before the line take, each with its newline, and what is in front of the column. -/
theorem debugPosition_identifies (text : String) (hsize : text.length < 2 ^ 63) (a b : Int) :
    let table := LineTable.ofText text
    let lines := text.toList.splitOn '\n'
    let position := table.toIndex.debugPosition
    (a < 0 → position a = (-1, -1)) ∧
    (0 ≤ a → a < b → b ≤ text.length → b < maxPosition →
      Prod.Lex (· < ·) (· < ·) (position a) (position b)) ∧
    (text.length ≤ a → position a = position text.length) ∧
    (0 ≤ a → 1 ≤ (position a).1 ∧ (position a).1 ≤ table.lineCount ∧ 1 ≤ (position a).2 ∧
      (position a).2 ≤ (lines.getD ((position a).1 - 1).toNat []).length + 1) ∧
    (0 ≤ a → min a text.length < maxPosition →
      lineStart lines ((position a).1 - 1).toNat + ((position a).2 - 1) = min a text.length) := by
  intro table lines position
  have hlength : text.toList.length = text.length := String.length_toList
  refine ⟨LineIndex.debugPosition_of_neg _, fun ha hab hb hmax => ?_, fun ha => ?_, fun ha => ?_, fun ha hmax => ?_⟩
  · obtain ⟨n, rfl⟩ := Int.eq_ofNat_of_zero_le ha
    obtain ⟨m, rfl⟩ := Int.eq_ofNat_of_zero_le (Int.le_of_lt (Int.lt_of_le_of_lt ha hab))
    have hkeptn : ((min n text.toList.length : Nat) : Int) < maxPosition := by omega
    have hkeptm : ((min m text.toList.length : Nat) : Int) < maxPosition := by omega
    have hn : position n = _ := LineTable.debugPosition_of_lt hkeptn
    have hm : position m = _ := LineTable.debugPosition_of_lt hkeptm
    have hplace := LineTable.isPlace_position text.toList n
    have hplace' := LineTable.isPlace_position text.toList m
    rw [hn, hm]
    rcases hplace.lex hplace' (by omega) with hline | ⟨hline, hcolumn⟩
    · exact .left _ _ (by omega)
    · rw [hline]
      exact .right _ (by omega)
  · obtain ⟨n, rfl⟩ := Int.eq_ofNat_of_zero_le (Int.le_trans (Int.natCast_nonneg _) ha)
    have hend : table.length ≤ n := Nat.le_trans (Nat.le_of_eq hlength) (Int.ofNat_le.1 ha)
    have hposition := LineTable.position_of_length_le hend
    have htable : table.length = text.length := hlength
    rw [htable] at hposition
    have hn : position n = _ := LineTable.debugPosition_natCast table n
    have hlast : position text.length = _ := LineTable.debugPosition_natCast table text.length
    rw [hn, hlast, hposition]
  · obtain ⟨n, rfl⟩ := Int.eq_ofNat_of_zero_le ha
    exact LineTable.debugPosition_bounds (hlength ▸ hsize) n
  · obtain ⟨n, rfl⟩ := Int.eq_ofNat_of_zero_le ha
    have hkept : ((min n text.toList.length : Nat) : Int) < maxPosition := by omega
    have hn : position n = _ := LineTable.debugPosition_of_lt hkept
    have hsum := (LineTable.isPlace_position text.toList n).sum
    rw [hn, Int.add_sub_cancel, Int.add_sub_cancel, Int.toNat_natCast, ← Int.natCast_add, hsum, hlength]
    omega

/-- An offset in an empty line and one in the line after it. -/
theorem debugPosition_identifies_empty_line :
    let position := (LineTable.ofText "a\n\nbc").toIndex.debugPosition
    "a\n\nbc".length < 2 ^ 63 ∧ position (-1) = (-1, -1) ∧
      Prod.Lex (· < ·) (· < ·) (position 2) (position 4) ∧ position 9 = position 5 ∧
      (position 4).1 ≤ (LineTable.ofText "a\n\nbc").lineCount ∧
      lineStart [['a'], [], ['b', 'c']] ((position 4).1 - 1).toNat + ((position 4).2 - 1) = 4 := by
  intro position
  have hsize : "a\n\nbc".length < 2 ^ 63 := by
    decide
  obtain ⟨hbefore, -⟩ := debugPosition_identifies "a\n\nbc" hsize (-1) 0
  obtain ⟨-, hlex, -⟩ := debugPosition_identifies "a\n\nbc" hsize 2 4
  obtain ⟨-, -, hpast, -⟩ := debugPosition_identifies "a\n\nbc" hsize 9 0
  obtain ⟨-, -, -, hbounds, hsum⟩ := debugPosition_identifies "a\n\nbc" hsize 4 0
  exact ⟨hsize, hbefore (by decide), hlex (by decide) (by decide) (by decide) (by decide), hpast (by decide),
    (hbounds (by decide)).2.1, hsum (by decide) (by decide)⟩

/-- One line of `length` characters. -/
def oneLine (length : Nat) : String := String.ofList (.replicate length 'x')

theorem length_oneLine (length : Nat) : (oneLine length).length = length := by
  rw [oneLine, String.length_ofList, List.length_replicate]

theorem debugPosition_oneLine (length n : Nat) :
    (LineTable.ofText (oneLine length)).toIndex.debugPosition n =
      (1, min (((min n length : Nat) : Int) + 1) maxPosition) := by
  have hfirst : min (((0 : Nat) : Int) + 1) maxPosition = 1 := by
    decide
  have hnone : '\n' ∉ List.replicate length 'x' := fun h => absurd (List.eq_of_mem_replicate h) (by decide)
  rw [LineTable.ofText, oneLine, String.toList_ofList, LineTable.debugPosition_natCast,
    LineTable.position_of_no_newline hnone, List.length_replicate, hfirst]

/-- At the end of the longest line with fewer than 2⁶³ characters the column would be 2⁶³, which is more than there
is: the end is given the same position as the character in front of it. -/
theorem debugPosition_longest_line :
    let text := oneLine (2 ^ 63 - 1)
    let position := (LineTable.ofText text).toIndex.debugPosition
    text.length < 2 ^ 63 ∧ (2 ^ 63 - 1 : Int) ≤ text.length ∧
      position (2 ^ 63 - 2) = position (2 ^ 63 - 1) ∧
      ¬ Prod.Lex (· < ·) (· < ·) (position (2 ^ 63 - 2)) (position (2 ^ 63 - 1)) ∧
      lineStart (text.toList.splitOn '\n') ((position (2 ^ 63 - 1)).1 - 1).toNat + ((position (2 ^ 63 - 1)).2 - 1) ≠
        (2 ^ 63 - 1 : Int) := by
  intro text position
  have hlength : text.length = 2 ^ 63 - 1 := length_oneLine _
  have hbefore : position (2 ^ 63 - 2) = (1, maxPosition) := debugPosition_oneLine _ (2 ^ 63 - 2)
  have hend : position (2 ^ 63 - 1) = (1, maxPosition) := debugPosition_oneLine _ (2 ^ 63 - 1)
  have hirrefl : ¬ Prod.Lex (· < ·) (· < ·) ((1 : Int), maxPosition) (1, maxPosition) := by
    rintro (⟨_, _, h⟩ | ⟨_, h⟩) <;> exact Int.lt_irrefl _ h
  rw [hbefore, hend, hlength]
  refine ⟨by decide, by decide, rfl, hirrefl, ?_⟩
  have hline : ((1 : Int) - 1).toNat = 0 := rfl
  rw [hline, lineStart_zero]
  decide

end TernBackend
