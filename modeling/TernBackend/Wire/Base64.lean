import TernBackend.Wire.LittleEndian

/-!
# Base64

Three bytes are written as four symbols of six bits each. One or two bytes at the end give two or
three symbols and are filled up to four with `=`. Every byte sequence has exactly one written form:
fill characters must be there, and bits that mean nothing must be zero.
-/

namespace TernBackend.Base64

/-- Why bytes are no written form. Offsets count bytes from the start. -/
inductive Fault where
  | invalidSymbol (symbol : UInt8) (offset : Nat)
  | invalidLength (length : Nat)
  | invalidLastSymbol (symbol : UInt8) (offset : Nat)
  | invalidPadding
  deriving DecidableEq

def Fault.message : Fault → String
  | invalidSymbol symbol offset =>
    "Invalid symbol " ++ toString symbol.toNat ++ ", offset " ++ toString offset ++ "."
  | invalidLength length => "Invalid input length: " ++ toString length
  | invalidLastSymbol symbol offset =>
    "Invalid last symbol " ++ toString symbol.toNat ++ ", offset " ++ toString offset ++ "."
  | invalidPadding => "Invalid padding"

def fill : UInt8 := 61

/-- The symbol of a number below 64: letters, small letters, digits, `+` and `/`. -/
def symbol (n : Nat) : UInt8 :=
  .ofNat (if n < 26 then n + 65 else if n < 52 then n + 71 else if n < 62 then n - 4
    else if n = 62 then 43 else 47)

def number? (b : UInt8) : Option Nat :=
  let n := b.toNat
  if 65 ≤ n ∧ n ≤ 90 then some (n - 65)
  else if 97 ≤ n ∧ n ≤ 122 then some (n - 71)
  else if 48 ≤ n ∧ n ≤ 57 then some (n + 4)
  else if n = 43 then some 62
  else if n = 47 then some 63
  else none

def encode : Bytes → Bytes
  | [] => []
  | [a] => [symbol (a.toNat / 4), symbol (a.toNat % 4 * 16), fill, fill]
  | [a, b] =>
    [symbol (a.toNat / 4), symbol (a.toNat % 4 * 16 + b.toNat / 16), symbol (b.toNat % 16 * 4), fill]
  | a :: b :: c :: rest =>
    symbol (a.toNat / 4) :: symbol (a.toNat % 4 * 16 + b.toNat / 16) ::
      symbol (b.toNat % 16 * 4 + c.toNat / 64) :: symbol (c.toNat % 64) :: encode rest

/-! ## Reading the last group -/

/-- The number of fill characters, when nothing else follows the one at `first`. -/
def fillCount (first : Nat) : Bytes → Except Fault Nat
  | [] => .ok 0
  | b :: bs => if b = fill then (fillCount first bs).map (· + 1) else .error (.invalidSymbol fill first)

/-- The numbers of the symbols in the last group, and how many fill characters follow them. The group
starts at `offset`; `place` of its bytes have been read. -/
def lastSymbols (offset place : Nat) : Bytes → Except Fault (List Nat × Nat)
  | [] => .ok ([], 0)
  | b :: bs =>
    if b = fill then
      if place < 2 then .error (.invalidSymbol fill (offset + place))
      else (fillCount (offset + place) bs).map fun n => ([], n + 1)
    else
      match number? b with
      | none => .error (.invalidSymbol b (offset + place))
      | some n => (lastSymbols offset (place + 1) bs).map fun (ns, fills) => (n :: ns, fills)

/-- The bytes of the last group, from its symbols and the number of its fill characters. -/
def lastBytes (offset : Nat) (symbols : List Nat) (fills : Nat) : Except Fault Bytes :=
  if symbols.length < 2 then .error (.invalidLength (offset + symbols.length))
  else if symbols.length + fills ≠ 4 then .error .invalidPadding
  else
    match symbols with
    | [w, x] =>
      if x % 16 ≠ 0 then .error (.invalidLastSymbol (symbol x) (offset + 1))
      else .ok [.ofNat (w * 4 + x / 16)]
    | [w, x, y] =>
      if y % 4 ≠ 0 then .error (.invalidLastSymbol (symbol y) (offset + 2))
      else .ok [.ofNat (w * 4 + x / 16), .ofNat (x % 16 * 16 + y / 4)]
    | [w, x, y, z] =>
      .ok [.ofNat (w * 4 + x / 16), .ofNat (x % 16 * 16 + y / 4), .ofNat (y % 4 * 64 + z)]
    | _ => .error .invalidPadding

/-- The bytes of a last group of one to four bytes. -/
def decodeLast (offset : Nat) (group : Bytes) : Except Fault Bytes := do
  let (symbols, fills) ← lastSymbols offset 0 group
  lastBytes offset symbols fills

/-! ## Reading all of it -/

def number (b : UInt8) (offset : Nat) : Except Fault Nat :=
  match number? b with
  | some n => .ok n
  | none => .error (.invalidSymbol b offset)

/-- The bytes of the groups from `offset` on. -/
def decodeFrom (offset : Nat) : Bytes → Except Fault Bytes
  | [] => .ok []
  | a :: b :: c :: d :: e :: rest => do
    let w ← number a offset
    let x ← number b (offset + 1)
    let y ← number c (offset + 2)
    let z ← number d (offset + 3)
    let later ← decodeFrom (offset + 4) (e :: rest)
    return .ofNat (w * 4 + x / 16) :: .ofNat (x % 16 * 16 + y / 4) :: .ofNat (y % 4 * 64 + z) :: later
  | group => decodeLast offset group

/-- The bytes of a written form, by the alphabet and the rules of the engine `STANDARD`. A stray
byte at the end is found first. -/
def decode (bs : Bytes) : Except Fault Bytes :=
  match bs.getLast? with
  | some last =>
    if bs.length % 4 = 1 ∧ last ≠ fill ∧ (number? last).isNone then
      .error (.invalidSymbol last (bs.length - 1))
    else decodeFrom 0 bs
  | none => .ok []

def text (bs : Bytes) : String := String.ofList ((encode bs).map fun b => Char.ofNat b.toNat)

end TernBackend.Base64
