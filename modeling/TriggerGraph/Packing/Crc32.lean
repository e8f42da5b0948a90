/-!
# CRC-32

The checksum of the gzip format: the remainder of a bit stream, lowest bits first, by the reversed
polynomial `0xEDB88320`.
-/

namespace TriggerGraph.Crc32

/-- Shift one bit out of the remainder. -/
def stepBit (remainder : UInt32) : UInt32 :=
  if remainder &&& 1 = 1 then (remainder >>> 1) ^^^ 0xEDB88320 else remainder >>> 1

/-- Fold one byte into the remainder. -/
def stepByte (remainder : UInt32) (byte : UInt8) : UInt32 :=
  Nat.repeat stepBit 8 (remainder ^^^ byte.toUInt32)

/-- The checksum of a run of bytes. -/
def checksum (bytes : List UInt8) : UInt32 :=
  bytes.foldl stepByte 0xFFFFFFFF ^^^ 0xFFFFFFFF

end TriggerGraph.Crc32
