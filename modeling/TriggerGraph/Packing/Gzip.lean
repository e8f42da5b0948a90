import TriggerGraph.Packing.Crc32
import TriggerGraph.Packing.Deflate

/-!
# The gzip format

A deflate stream between a header and a trailer with the checksum and the length of the data.  Only
the first member of a file is read; what follows it is ignored.
-/

namespace TriggerGraph.Packing.Gzip

/-- Why bytes are not gzip. -/
inductive Fault where
  | unexpectedEnd
  | header
  | longField
  | stream (cause : StreamFault)
  | checksum
  deriving DecidableEq

/-- The message of a fault. -/
def Fault.message : Fault → String
  | unexpectedEnd => "unexpected end of file"
  | header => "invalid gzip header"
  | longField => "gzip header field too long"
  | stream cause => cause.message
  | checksum => "corrupt gzip stream does not have a matching checksum"

/-- A number in bytes, lowest first. -/
def littleEndian : (count : Nat) → Nat → List UInt8
  | 0, _ => []
  | count + 1, value => UInt8.ofNat value :: littleEndian count (value / 256)

/-- The number of a run of bytes, lowest first. -/
def littleEndianValue : List UInt8 → Nat
  | [] => 0
  | byte :: rest => byte.toNat + 256 * littleEndianValue rest

/-- The next bytes and what follows them. -/
def takeBytes (count : Nat) (bytes : List UInt8) : Except Fault (List UInt8 × List UInt8) :=
  if bytes.length < count then .error .unexpectedEnd
  else .ok (bytes.take count, bytes.drop count)

/-- What follows a field of bytes with its length in front. -/
def skipExtra (bytes : List UInt8) : Except Fault (List UInt8) := do
  let (length, bytes) ← takeBytes 2 bytes
  let (_, bytes) ← takeBytes (littleEndianValue length) bytes
  return bytes

/-- What follows a field that ends with a zero byte; `room` more bytes are allowed. -/
def skipText : (room : Nat) → List UInt8 → Except Fault (List UInt8)
  | _, [] => .error .unexpectedEnd
  | room, byte :: rest =>
      if byte = 0 then .ok rest
      else
        match room with
        | 0 => .error .longField
        | room + 1 => skipText room rest

/-- What follows the checksum of the header, given the bytes from its start. -/
def skipHeaderSum (start bytes : List UInt8) : Except Fault (List UInt8) := do
  let (sum, rest) ← takeBytes 2 bytes
  let covered := start.take (start.length - bytes.length)
  if littleEndianValue sum ≠ (Crc32.checksum covered).toNat % 65536 then throw .checksum
  return rest

/-- Whether a flag is set. -/
def hasFlag (flags : UInt8) (bit : UInt8) : Bool := flags &&& bit != 0

/-- What follows the header. -/
def skipHeader (start : List UInt8) : Except Fault (List UInt8) := do
  let (fixed, bytes) ← takeBytes 10 start
  let flags := fixed.getD 3 0
  if fixed.take 3 ≠ [0x1f, 0x8b, 8] || hasFlag flags 0xE0 then throw .header
  let bytes ← if hasFlag flags 4 then skipExtra bytes else pure bytes
  let bytes ← if hasFlag flags 8 then skipText 65535 bytes else pure bytes
  let bytes ← if hasFlag flags 16 then skipText 65535 bytes else pure bytes
  if hasFlag flags 2 then skipHeaderSum start bytes else pure bytes

/-- The data of the first member. -/
def decompress (bytes : List UInt8) : Except Fault (List UInt8) := do
  let bytes ← skipHeader bytes
  let (data, bytes) ← (Deflate.inflate bytes).mapError .stream
  let (trailer, _) ← takeBytes 8 bytes
  if littleEndianValue (trailer.take 4) ≠ (Crc32.checksum data).toNat ||
      littleEndianValue (trailer.drop 4) ≠ data.length % UInt32.size then throw .checksum
  return data

/-- The header of a member without a name, a time or an origin. -/
def plainHeader : List UInt8 := [0x1f, 0x8b, 8, 0, 0, 0, 0, 0, 0, 0xff]

/-- One member that holds the data. -/
def compress (data : List UInt8) : List UInt8 :=
  plainHeader ++ Deflate.deflate data ++ littleEndian 4 (Crc32.checksum data).toNat ++
    littleEndian 4 data.length

end TriggerGraph.Packing.Gzip
