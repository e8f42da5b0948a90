/-!
# Bit streams

Bytes are read and written lowest bit first.
-/

namespace TriggerGraph.Packing

/-- The low bits of a number, lowest first. -/
def lowBits : (count : Nat) → Nat → List Bool
  | 0, _ => []
  | count + 1, value => (value % 2 == 1) :: lowBits count (value / 2)

/-- The number of a run of bits, lowest first. -/
def bitsValue : List Bool → Nat
  | [] => 0
  | bit :: rest => bit.toNat + 2 * bitsValue rest

/-- What is left to read: the rest of a byte, then whole bytes. -/
structure Bits where
  /-- The unread bits of the byte being read. -/
  pending : List Bool
  /-- The bytes behind it. -/
  bytes : List UInt8

namespace Bits

/-- The bits of a run of bytes. -/
def ofBytes (bytes : List UInt8) : Bits := ⟨[], bytes⟩

/-- The number of bits left. -/
def available (bits : Bits) : Nat := bits.pending.length + 8 * bits.bytes.length

/-- The next bit and what follows it. -/
def next? : Bits → Option (Bool × Bits)
  | ⟨bit :: pending, bytes⟩ => some (bit, ⟨pending, bytes⟩)
  | ⟨[], byte :: bytes⟩ =>
      some (byte.toNat % 2 == 1, ⟨lowBits 7 (byte.toNat / 2), bytes⟩)
  | ⟨[], []⟩ => none

/-- The number in the next bits, lowest first, and what follows them. -/
def take? : (count : Nat) → Bits → Option (Nat × Bits)
  | 0, bits => some (0, bits)
  | count + 1, bits =>
      match bits.next? with
      | none => none
      | some (bit, bits) =>
          (take? count bits).map fun (value, rest) => (bit.toNat + 2 * value, rest)

end Bits

/-- Bits gathered into bytes, the last byte filled up with zeros. -/
def gather : List Bool → List UInt8
  | a :: b :: c :: d :: e :: f :: g :: h :: rest =>
      UInt8.ofNat (bitsValue [a, b, c, d, e, f, g, h]) :: gather rest
  | [] => []
  | short => [UInt8.ofNat (bitsValue short)]

end TriggerGraph.Packing
