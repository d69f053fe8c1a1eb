/-!
# Numbers as bytes

A number in a fixed count of bytes, the least significant first.
-/

namespace TernBackend

abbrev Bytes : Type := List UInt8

namespace Wire

/-- The `width` lowest bytes of a number. -/
def littleEndian : Nat → Nat → Bytes
  | 0, _ => []
  | width + 1, n => UInt8.ofNat (n % 256) :: littleEndian width (n / 256)

/-- The number that bytes stand for. -/
def value : Bytes → Nat
  | [] => 0
  | b :: bs => b.toNat + 256 * value bs

/-- The first `n` bytes and what follows them, if there are that many. -/
def cut? : Nat → Bytes → Option (Bytes × Bytes)
  | 0, bs => some ([], bs)
  | _ + 1, [] => none
  | n + 1, b :: bs => (cut? n bs).map fun (front, rest) => (b :: front, rest)

end Wire

end TernBackend
