import Mathlib.Data.List.GetD
import TernBackend.Source.Position

/-!
# Line tables against a plain scan

The search by halving is right about increasing arrays, whether it hits or misses (`located_search`). The starts of
lines are increasing, and those that belong to a part of the text come before those of the rest
(`startsAfter_append`), so the last start at or before an offset is that of the last newline in front of it
(`lineAt_eq_count`). What a lookup gives is therefore what one finds by reading the text up to the offset and
counting newlines (`position_eq_scan`).
-/

namespace TernBackend

/-! ## Search by halving -/

/-- The entries of an array get larger and larger. -/
def Increasing (a : Array Nat) : Prop := ∀ i j, i < j → j < a.size → a.getD i 0 < a.getD j 0

theorem getD_toArray (xs : List Nat) (i : Nat) : xs.toArray.getD i 0 = xs.getD i 0 := by
  rw [Array.getD_eq_getD_getElem?, List.getElem?_toArray, List.getD_eq_getElem?_getD]

theorem increasing_toArray {xs : List Nat} (h : xs.Pairwise (· < ·)) : Increasing xs.toArray := by
  intro i j hij hj
  rw [List.size_toArray] at hj
  have hi : i < xs.length := Nat.lt_trans hij hj
  rw [getD_toArray, getD_toArray, List.getD_eq_getElem xs 0 hi, List.getD_eq_getElem xs 0 hj]
  exact List.pairwise_iff_getElem.1 h i j hi hj hij

/-- What is right to say about a key: a place that holds it, or one with smaller entries in front of it and
greater ones from there on. -/
inductive Located (a : Array Nat) (key : Nat) : Found → Prop
  | here {i} (hi : i < a.size) (heq : a.getD i 0 = key) : Located a key (.here i)
  | before {i} (hi : i ≤ a.size) (hbelow : ∀ j < i, a.getD j 0 < key)
      (habove : ∀ j, i ≤ j → j < a.size → key < a.getD j 0) : Located a key (.before i)

/-- The part that is searched has smaller entries in front of it and greater ones behind it. Halving keeps that,
for what is on the other side of the middle is on the same side of the key as the middle. -/
theorem located_search_between {a : Array Nat} (ha : Increasing a) (key lo hi : Nat) (hle : lo ≤ hi)
    (hhi : hi ≤ a.size) (hbelow : ∀ j < lo, a.getD j 0 < key)
    (habove : ∀ j, hi ≤ j → j < a.size → key < a.getD j 0) : Located a key (search a key lo hi) := by
  fun_induction search a key lo hi with
  | case1 lo hi hlt middle heq => exact .here (by omega) heq
  | case2 lo hi hlt middle hne hsmall ih =>
    refine ih (by omega) hhi (fun j hj => ?_) habove
    rcases Nat.lt_or_ge j middle with hj' | hj'
    · exact Nat.lt_trans (ha j middle hj' (by omega)) hsmall
    · obtain rfl : j = middle := by omega
      exact hsmall
  | case3 lo hi hlt middle hne hsmall ih =>
    have hgreat : key < a.getD middle 0 := by omega
    refine ih (by omega) (by omega) hbelow (fun j hj hj' => ?_)
    rcases Nat.lt_or_ge middle j with hlt' | hge
    · exact Nat.lt_trans hgreat (ha middle j hlt' hj')
    · obtain rfl : j = middle := by omega
      exact hgreat
  | case4 lo hi hnot =>
    obtain rfl : lo = hi := by omega
    exact .before hhi hbelow habove

theorem located_search {a : Array Nat} (ha : Increasing a) (key : Nat) :
    Located a key (search a key 0 a.size) :=
  located_search_between ha key 0 a.size (Nat.zero_le _) (Nat.le_refl _) (by simp) fun j hj hj' => by omega

namespace LineTable

/-! ## Starts of lines -/

theorem startsAfter_append (offset : Nat) :
    ∀ xs ys : List Char, startsAfter offset (xs ++ ys) =
      startsAfter offset xs ++ startsAfter (offset + xs.length) ys
  | [], ys => by simp [startsAfter]
  | c :: xs, ys => by
    have ih := startsAfter_append (offset + 1) xs ys
    rw [Nat.add_right_comm, Nat.add_assoc] at ih
    by_cases hc : c = '\n' <;> simp [startsAfter, hc, ih]

theorem length_startsAfter (offset : Nat) : ∀ cs : List Char, (startsAfter offset cs).length = cs.count '\n'
  | [] => rfl
  | c :: cs => by
    have ih := length_startsAfter (offset + 1) cs
    by_cases hc : c = '\n' <;> simp [startsAfter, hc, ih]

theorem startsAfter_eq_nil {cs : List Char} (h : '\n' ∉ cs) (offset : Nat) : startsAfter offset cs = [] := by
  rw [← List.length_eq_zero_iff, length_startsAfter, List.count_eq_zero]
  exact h

/-- Lines start behind the first character of a text and not behind its end. -/
theorem bounds_of_mem_startsAfter {offset start : Nat} :
    ∀ {cs : List Char}, start ∈ startsAfter offset cs → offset < start ∧ start ≤ offset + cs.length
  | c :: cs, h => by
    unfold startsAfter at h
    split at h
    · rcases List.mem_cons.1 h with rfl | h
      · simp
      · have hbounds := bounds_of_mem_startsAfter h
        rw [List.length_cons]
        omega
    · have hbounds := bounds_of_mem_startsAfter h
      rw [List.length_cons]
      omega

theorem pairwise_startsAfter (offset : Nat) : ∀ cs : List Char, (startsAfter offset cs).Pairwise (· < ·)
  | [] => .nil
  | c :: cs => by
    have ih := pairwise_startsAfter (offset + 1) cs
    unfold startsAfter
    split
    · exact List.pairwise_cons.2 ⟨fun start h => (bounds_of_mem_startsAfter h).1, ih⟩
    · exact ih

theorem increasing_starts (cs : List Char) : Increasing (ofChars cs).starts :=
  increasing_toArray (List.pairwise_cons.2
    ⟨fun _ h => (bounds_of_mem_startsAfter h).1, pairwise_startsAfter 0 cs⟩)

theorem lineCount_ofChars (cs : List Char) : (ofChars cs).lineCount = cs.count '\n' + 1 := by
  simp [lineCount, ofChars, length_startsAfter]

/-! ## Looking up -/

/-- The line that starts last at or before an offset. -/
structure IsLineAt (t : LineTable) (offset line : Nat) : Prop where
  lt : line < t.lineCount
  le : t.starts.getD line 0 ≤ offset
  next : ∀ j, line < j → j < t.lineCount → offset < t.starts.getD j 0

theorem IsLineAt.unique {t : LineTable} {offset line line' : Nat} (h : t.IsLineAt offset line)
    (h' : t.IsLineAt offset line') : line = line' := by
  rcases Nat.lt_trichotomy line line' with hlt | heq | hgt
  · exact absurd (h.next line' hlt h'.lt) (by have := h'.le; omega)
  · exact heq
  · exact absurd (h'.next line hgt h.lt) (by have := h.le; omega)

/-- The first line starts at zero, so no offset goes before it. -/
theorem pos_of_search_eq_before {cs : List Char} {offset i : Nat}
    (h : search (ofChars cs).starts offset 0 (ofChars cs).starts.size = .before i) : 0 < i := by
  have hlocated := located_search (increasing_starts cs) offset
  rw [h] at hlocated
  cases hlocated with
  | before hi hbelow habove =>
    refine Nat.pos_of_ne_zero fun hzero => ?_
    have hfirst := habove 0 (Nat.le_of_eq hzero) (Nat.zero_lt_succ _)
    exact Nat.not_lt_zero offset hfirst

theorem isLineAt_lineAt (cs : List Char) (offset : Nat) :
    (ofChars cs).IsLineAt offset ((ofChars cs).lineAt offset) := by
  have hinc := increasing_starts cs
  have hlocated := located_search hinc offset
  unfold lineAt
  cases hfound : search (ofChars cs).starts offset 0 (ofChars cs).starts.size with
  | here i =>
    rw [hfound] at hlocated
    cases hlocated with
    | here hi heq => exact ⟨hi, Nat.le_of_eq heq, fun j hj hj' => heq ▸ hinc i j hj hj'⟩
  | before i =>
    have hpos := pos_of_search_eq_before hfound
    rw [hfound] at hlocated
    cases hlocated with
    | before hi hbelow habove =>
      have hlt : i - 1 < i := Nat.sub_one_lt_of_lt hpos
      exact ⟨Nat.lt_of_lt_of_le hlt hi, Nat.le_of_lt (hbelow (i - 1) hlt),
        fun j hj hj' => habove j (Nat.le_of_pred_lt hj) hj'⟩

/-! ## Reading up to an offset -/

/-- The starts of the lines that begin in the text in front of an offset, and of the others. -/
theorem getD_starts_append (front back : List Char) (i : Nat) :
    (ofChars (front ++ back)).starts.getD i 0 =
      ((0 :: startsAfter 0 front) ++ startsAfter front.length back).getD i 0 := by
  rw [ofChars, startsAfter_append, Nat.zero_add, getD_toArray]
  rfl

theorem isLineAt_count (front back : List Char) :
    (ofChars (front ++ back)).IsLineAt front.length (front.count '\n') := by
  have hlength : (0 :: startsAfter 0 front).length = front.count '\n' + 1 :=
    congrArg (· + 1) (length_startsAfter 0 front)
  have hcount : (ofChars (front ++ back)).lineCount = front.count '\n' + back.count '\n' + 1 := by
    rw [lineCount_ofChars, List.count_append]
  refine ⟨by omega, ?_, fun j hj hj' => ?_⟩
  · have hlt : front.count '\n' < (0 :: startsAfter 0 front).length := by omega
    rw [getD_starts_append, List.getD_append _ _ _ _ hlt, List.getD_eq_getElem _ _ hlt]
    rcases List.mem_cons.1 (List.getElem_mem hlt) with hzero | hmem
    · omega
    · have hbounds := bounds_of_mem_startsAfter hmem
      omega
  · have hback : j - (front.count '\n' + 1) < (startsAfter front.length back).length := by
      rw [length_startsAfter]
      omega
    rw [getD_starts_append, List.getD_append_right _ _ _ _ (by omega), hlength,
      List.getD_eq_getElem _ _ hback]
    exact (bounds_of_mem_startsAfter (List.getElem_mem hback)).1

theorem lineAt_eq_count (front back : List Char) :
    (ofChars (front ++ back)).lineAt front.length = front.count '\n' :=
  (isLineAt_lineAt _ _).unique (isLineAt_count front back)

/-- The line that goes on at an offset starts behind the last newline in front of it. -/
theorem start_of_last_newline {before after : List Char} (h : '\n' ∉ after) (back : List Char) :
    (ofChars (before ++ '\n' :: after ++ back)).starts.getD ((before ++ '\n' :: after).count '\n') 0 =
      before.length + 1 := by
  have hafter : after.count '\n' = 0 := List.count_eq_zero.2 h
  have hcount : (before ++ '\n' :: after).count '\n' = (0 :: startsAfter 0 before).length := by
    rw [List.count_append, List.count_cons_self, hafter, List.length_cons, length_startsAfter]
  have hstarts : startsAfter 0 (before ++ '\n' :: after) = startsAfter 0 before ++ [before.length + 1] := by
    rw [startsAfter_append, startsAfter, if_pos rfl, startsAfter_eq_nil h, Nat.zero_add]
  rw [getD_starts_append, hstarts, hcount, ← List.cons_append, List.append_assoc,
    List.getD_append_right _ _ _ _ (Nat.le_refl _), Nat.sub_self]
  rfl

theorem start_of_no_newline {front : List Char} (h : '\n' ∉ front) (back : List Char) :
    (ofChars (front ++ back)).starts.getD (front.count '\n') 0 = 0 := by
  rw [List.count_eq_zero.2 h]
  rfl

/-- Where the text is split at the offset that is looked up, the line is told by the newlines in front of it. -/
theorem position_of_split {front back : List Char} {offset : Nat}
    (h : min offset (front ++ back).length = front.length) :
    (ofChars (front ++ back)).position offset =
      (front.count '\n', front.length - (ofChars (front ++ back)).starts.getD (front.count '\n') 0) := by
  have hlength : (ofChars (front ++ back)).length = (front ++ back).length := rfl
  rw [position, hlength, h, lineAt_eq_count]

/-! ## The result -/

/-- **A lookup agrees with a plain scan.** Take the text in front of an offset, or all of it if the offset is past
its end. The line of the offset is the number of newlines there; the column is the length of that text less what
goes up to the last newline and with it, or all of the length if there is no newline. The search never goes before
the first line, and the line it leads to starts at or before the offset, so nothing is subtracted from less. There
is one line more than newlines. -/
theorem position_eq_scan (text : String) (offset : Nat) :
    let table := ofText text
    let k := min offset text.length
    let front := text.toList.take k
    (table.position offset).1 = front.count '\n' ∧
    (∀ before after, front = before ++ '\n' :: after → '\n' ∉ after →
      (table.position offset).2 = k - (before.length + 1)) ∧
    ('\n' ∉ front → (table.position offset).2 = k) ∧
    (∀ i, search table.starts k 0 table.starts.size = .before i → 1 ≤ i) ∧
    (∃ start, table.starts[table.lineAt k]? = some start ∧ start ≤ k) ∧
    table.lineCount = text.toList.count '\n' + 1 := by
  intro table k front
  have hfront : front.length = k := by
    rw [List.length_take, String.length_toList]
    exact Nat.min_eq_left (Nat.min_le_right _ _)
  have hsplit : text.toList = front ++ text.toList.drop k := (List.take_append_drop k text.toList).symm
  have htable : table = ofChars (front ++ text.toList.drop k) := congrArg ofChars hsplit
  have hposition : table.position offset = (front.count '\n', k - table.starts.getD (front.count '\n') 0) := by
    have hmin : min offset (front ++ text.toList.drop k).length = front.length := by
      rw [← hsplit, String.length_toList, hfront]
    rw [htable, position_of_split hmin, hfront]
  refine ⟨congrArg Prod.fst hposition, fun before after heq hafter => ?_, fun hnone => ?_,
    fun i => pos_of_search_eq_before, ?_, lineCount_ofChars text.toList⟩
  · rw [hposition, htable, heq, start_of_last_newline hafter]
  · rw [hposition, htable, start_of_no_newline hnone, Nat.sub_zero]
  · have hline := isLineAt_lineAt text.toList k
    have hlt : table.lineAt k < table.starts.size := hline.lt
    refine ⟨table.starts[table.lineAt k], Array.getElem?_eq_getElem hlt, ?_⟩
    have hle : table.starts.getD (table.lineAt k) 0 ≤ k := hline.le
    rwa [Array.getD_eq_getD_getElem?, Array.getElem?_eq_getElem hlt] at hle

/-- An offset in the first line, one behind an empty line, and one past a newline at the end. -/
theorem position_eq_scan_empty_line :
    let table := ofText "a\n\nbc\n"
    table.position 1 = (0, 1) ∧ table.position 4 = (2, 1) ∧ table.position 9 = (3, 0) := by
  intro table
  obtain ⟨hline, -, hnone, -⟩ := position_eq_scan "a\n\nbc\n" 1
  obtain ⟨hline', hlast, -⟩ := position_eq_scan "a\n\nbc\n" 4
  obtain ⟨hline'', hlast', -⟩ := position_eq_scan "a\n\nbc\n" 9
  refine ⟨Prod.ext hline (hnone (by decide)), Prod.ext hline' ?_, Prod.ext hline'' ?_⟩
  · exact hlast ['a', '\n'] ['b'] (by decide) (by decide)
  · exact hlast' ['a', '\n', '\n', 'b', 'c'] [] (by decide) (by decide)

end LineTable
end TernBackend
