import TernBackend.Wire.LittleEndian

/-!
# UTF-8

A character takes one to four bytes. The first byte tells how many, and narrows the second one where
otherwise a shorter form, a surrogate or a number beyond the last code point could be written. A
failed reading says where the well-formed part ends, and how many bytes there begin like a character,
or that the text stops within one.
-/

namespace TernBackend.Utf8

/-- Where and how a reading failed. Positions count bytes from the start of the text. -/
inductive Fault where
  /-- The bytes at `position` are no character; `length` of them look like the start of one. -/
  | invalid (length position : Nat)
  /-- The text ends within the character at `position`. -/
  | incomplete (position : Nat)
  deriving DecidableEq

def Fault.message : Fault → String
  | invalid length position =>
    "invalid utf-8 sequence of " ++ toString length ++ " bytes from index " ++ toString position
  | incomplete position => "incomplete utf-8 byte sequence from index " ++ toString position

def encodeChar (c : Char) : Bytes :=
  let n := c.toNat
  if n < 0x80 then [.ofNat n]
  else if n < 0x800 then [.ofNat (0xC0 + n / 64), .ofNat (0x80 + n % 64)]
  else if n < 0x10000 then
    [.ofNat (0xE0 + n / 4096), .ofNat (0x80 + n / 64 % 64), .ofNat (0x80 + n % 64)]
  else
    [.ofNat (0xF0 + n / 262144), .ofNat (0x80 + n / 4096 % 64), .ofNat (0x80 + n / 64 % 64),
      .ofNat (0x80 + n % 64)]

def encode (s : String) : Bytes := s.toList.flatMap encodeChar

/-- How many bytes a character with the given first byte has, if one can start so. -/
def width? (first : Nat) : Option Nat :=
  if first < 0x80 then some 1
  else if 0xC2 ≤ first ∧ first ≤ 0xDF then some 2
  else if 0xE0 ≤ first ∧ first ≤ 0xEF then some 3
  else if 0xF0 ≤ first ∧ first ≤ 0xF4 then some 4
  else none

/-- Whether a byte may be the second one of a character with the given first byte. -/
def isSecond (first second : Nat) : Bool :=
  (if first = 0xE0 then 0xA0 else if first = 0xF0 then 0x90 else 0x80) ≤ second &&
    second ≤ (if first = 0xED then 0x9F else if first = 0xF4 then 0x8F else 0xBF)

/-- Whether a byte may be the third or the fourth one of a character. -/
def isLater (b : Nat) : Bool := 0x80 ≤ b && b ≤ 0xBF

/-- The character of a byte and the six lower bits of each byte after it. -/
def character (high : Nat) (later : List Nat) : Char :=
  .ofNat (later.foldl (fun n b => 64 * n + (b - 0x80)) high)

/-- The characters of the bytes that start at `position`. -/
def decodeAt (position : Nat) : Bytes → Except Fault (List Char)
  | [] => .ok []
  | a :: rest =>
    match width? a.toNat with
    | none => .error (.invalid 1 position)
    | some 1 => (decodeAt (position + 1) rest).map (character a.toNat [] :: ·)
    | some n =>
      match rest with
      | [] => .error (.incomplete position)
      | b :: rest =>
        if !isSecond a.toNat b.toNat then .error (.invalid 1 position)
        else if n = 2 then
          (decodeAt (position + 2) rest).map (character (a.toNat - 0xC0) [b.toNat] :: ·)
        else
          match rest with
          | [] => .error (.incomplete position)
          | c :: rest =>
            if !isLater c.toNat then .error (.invalid 2 position)
            else if n = 3 then
              (decodeAt (position + 3) rest).map
                (character (a.toNat - 0xE0) [b.toNat, c.toNat] :: ·)
            else
              match rest with
              | [] => .error (.incomplete position)
              | d :: rest =>
                if !isLater d.toNat then .error (.invalid 3 position)
                else
                  (decodeAt (position + 4) rest).map
                    (character (a.toNat - 0xF0) [b.toNat, c.toNat, d.toNat] :: ·)

def decode (bs : Bytes) : Except Fault String := (decodeAt 0 bs).map String.ofList

/-! ## Reading whatever there is -/

/-- What stands in the place of bytes that are no character. -/
def replacement : Char := .ofNat 0xFFFD

/-- The characters of any bytes. Where a reading would fail, the bytes that look like the start of a
character are replaced as one, and it goes on behind them. -/
def lossyChars : Bytes → List Char
  | [] => []
  | a :: rest =>
    match width? a.toNat with
    | none => replacement :: lossyChars rest
    | some 1 => character a.toNat [] :: lossyChars rest
    | some n =>
      match rest with
      | [] => [replacement]
      | b :: later =>
        if !isSecond a.toNat b.toNat then replacement :: lossyChars (b :: later)
        else if n = 2 then character (a.toNat - 0xC0) [b.toNat] :: lossyChars later
        else
          match later with
          | [] => [replacement]
          | c :: last =>
            if !isLater c.toNat then replacement :: lossyChars (c :: last)
            else if n = 3 then character (a.toNat - 0xE0) [b.toNat, c.toNat] :: lossyChars last
            else
              match last with
              | [] => [replacement]
              | d :: rest =>
                if !isLater d.toNat then replacement :: lossyChars (d :: rest)
                else character (a.toNat - 0xF0) [b.toNat, c.toNat, d.toNat] :: lossyChars rest

/-- `String::from_utf8_lossy`. -/
def lossy (bs : Bytes) : String := .ofList (lossyChars bs)

end TernBackend.Utf8
