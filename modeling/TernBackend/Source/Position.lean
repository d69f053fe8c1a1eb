/-!
# Source positions

A line table holds the offset at which every line of a text starts, counted in characters. It turns
an offset into a line and a column, both from zero, by a binary search for the last line that starts
at or before the offset; an offset past the end of the text is taken for the end.

Debug information counts lines and columns from one and writes `-1` for a position that is not
known, which is what a negative offset stands for. Numbers stop at the largest signed 64-bit one.
-/

namespace TernBackend

/-- The trait `LineIndex`, as its two answers about an offset. -/
structure LineIndex where
  line : Nat → Nat
  column : Nat → Nat

/-- Where a key was looked for: at a place that holds it, or before which it would have to go. -/
inductive Found where
  | here (place : Nat)
  | before (place : Nat)
  deriving DecidableEq

/-- `binary_search`: looks for `key` in the places `lo` to `hi` (exclusive) of an increasing array
by halving. -/
def search (a : Array Nat) (key lo hi : Nat) : Found :=
  if lo < hi then
    let middle := lo + (hi - lo) / 2
    if a.getD middle 0 = key then .here middle
    else if a.getD middle 0 < key then search a key (middle + 1) hi
    else search a key lo middle
  else .before lo
termination_by hi - lo

/-- `LineMap`. The lines of one text. -/
structure LineTable where
  /-- The offset at which every line starts; the first is zero. -/
  starts : Array Nat
  length : Nat

namespace LineTable

/-- The offsets just after each newline of a text that begins at offset `offset`. -/
def startsAfter (offset : Nat) : List Char → List Nat
  | [] => []
  | c :: cs => if c = '\n' then (offset + 1) :: startsAfter (offset + 1) cs else startsAfter (offset + 1) cs

def ofChars (cs : List Char) : LineTable := ⟨(0 :: startsAfter 0 cs).toArray, cs.length⟩

/-- `LineMap::new`. -/
def ofText (s : String) : LineTable := ofChars s.toList

/-- The line whose start the search has found, or the one before the place it has found. -/
def lineAt (t : LineTable) (offset : Nat) : Nat :=
  match search t.starts offset 0 t.starts.size with
  | .here i => i
  | .before i => i - 1

/-- `LineMap::offset_to_line_col`. -/
def position (t : LineTable) (offset : Nat) : Nat × Nat :=
  let offset := min offset t.length
  let line := t.lineAt offset
  (line, offset - t.starts.getD line 0)

/-- `LineMap::line_count`. -/
def lineCount (t : LineTable) : Nat := t.starts.size

/-- `LineMap::is_empty`. -/
def isEmpty (t : LineTable) : Bool := t.length == 0

def toIndex (t : LineTable) : LineIndex where
  line offset := (t.position offset).1
  column offset := (t.position offset).2

end LineTable

/-- The largest number a debug position can have. -/
def maxPosition : Int := 0x7FFFFFFFFFFFFFFF

/-- `SourceLocator::translate`: the number, counted from one, for what an index answers about an
offset. -/
def debugNumber (answer : Nat → Nat) (offset : Int) : Int :=
  match offset with
  | .negSucc _ => -1
  | .ofNat offset => min ((answer offset : Int) + 1) maxPosition

namespace LineIndex

/-- `SourceLocator::line`. -/
def debugLine (index : LineIndex) (offset : Int) : Int := debugNumber index.line offset

/-- `SourceLocator::column`. -/
def debugColumn (index : LineIndex) (offset : Int) : Int := debugNumber index.column offset

end LineIndex

end TernBackend
