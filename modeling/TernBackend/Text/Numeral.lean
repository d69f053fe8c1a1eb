/-!
# Unsigned numerals

A numeral is an optional plus sign and at least one decimal digit. Leading zeros are allowed, so a
number has many numerals; it is written with the fewest digits and no sign.
-/

namespace TernBackend.Text

/-- The number that a non-empty run of decimal digits stands for. -/
def digitsValue? (cs : List Char) : Option Nat :=
  if cs ≠ [] ∧ cs.all Char.isDigit then some (Nat.ofDigitChars 10 cs 0) else none

/-- The digits of a numeral: what follows its plus sign, if it has one. -/
def unsigned : List Char → List Char
  | '+' :: ds => ds
  | cs => cs

def numeralValue? (cs : List Char) : Option Nat := digitsValue? (unsigned cs)

/-- `u32::from_str`: the number that a numeral stands for, if it fits into 32 bits. -/
def word32? (cs : List Char) : Option UInt32 :=
  match numeralValue? cs with
  | some n => if n < UInt32.size then some (UInt32.ofNat n) else none
  | none => none

def decimal (n : Nat) : List Char := Nat.toDigits 10 n

end TernBackend.Text
