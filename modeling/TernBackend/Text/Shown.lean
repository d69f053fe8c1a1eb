import TernBackend.Text.Hidden
import TernBackend.Text.Mark

/-!
# Characters that are shown

Which characters can stand for themselves when a text is shown: all but those with no look of their
own and the marks, which change the look of the character before them.
-/

namespace TernBackend.Text

/-- Whether a code point lies in one of the ranges. -/
def inRanges (ranges : List (Nat × Nat)) (n : Nat) : Bool :=
  ranges.any fun (first, last) => first ≤ n && n ≤ last

/-- Whether a character can stand for itself when a text is shown. -/
def isShown (c : Char) : Bool := !inRanges hiddenRanges c.toNat && !inRanges markRanges c.toNat

end TernBackend.Text
