import TernBackend.Text.Shown

/-!
# Escaped text

A text written so that it can be shown inside quotes. Quotes and the backslash get a backslash, some
control characters have short names, and what does not stand for itself is given by its code point.
There are two ways: in the plain one only printable ASCII stands for itself, in the wide one every
character that is shown.
-/

namespace TernBackend.Text

/-- A code point in lower-case hexadecimal digits between braces. -/
def codePoint (c : Char) : List Char :=
  ['\\', 'u', '\x7b'] ++ Nat.toDigits 16 c.toNat ++ ['\x7d']

/-- One character as it is written between quotes, in ASCII. -/
def escapeChar (c : Char) : List Char :=
  if c = '\t' then ['\\', 't']
  else if c = '\r' then ['\\', 'r']
  else if c = '\n' then ['\\', 'n']
  else if c = '\x27' then ['\\', '\x27']
  else if c = '"' then ['\\', '"']
  else if c = '\\' then ['\\', '\\']
  else if 0x20 ≤ c.toNat ∧ c.toNat ≤ 0x7E then [c]
  else codePoint c

/-- `str::escape_default`: a text as it is written between quotes, in ASCII. -/
def escaped (s : String) : String := String.ofList (s.toList.flatMap escapeChar)

def quoteChar (c : Char) : List Char :=
  if c = '\x00' then ['\\', '0']
  else if c = '\x27' then [c]
  else if isShown c ∧ 0x7E < c.toNat then [c]
  else escapeChar c

/-- `Debug` of a text. -/
def quoted (s : String) : String := String.ofList ('"' :: s.toList.flatMap quoteChar ++ ['"'])

end TernBackend.Text
