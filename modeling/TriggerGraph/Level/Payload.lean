import TriggerGraph.Packing.Base64
import TriggerGraph.Packing.Gzip
import TriggerGraph.Text.Blank
import TriggerGraph.Text.Utf8

/-!
# Payloads

The form a level string takes inside a save document and when it is shared: compressed, then written
with symbols that need no quoting.
-/

namespace TriggerGraph

/-- Why a text is not a payload. -/
inductive PayloadError where
  | base64 (cause : Base64.Fault)
  | gzip (cause : Packing.Gzip.Fault)
  | utf8 (cause : Utf8.Fault)
  deriving DecidableEq

namespace PayloadError

/-- The message of the layer that failed. -/
def cause : PayloadError → String
  | base64 cause => cause.message
  | gzip cause => cause.message
  | utf8 cause => cause.message

/-- The message of a payload error. -/
def message (error : PayloadError) : String :=
  let layer := match error with
    | base64 _ => "payload is not valid base64: "
    | gzip _ => "payload is not valid gzip: "
    | utf8 _ => "payload does not decode to UTF-8 text: "
  layer ++ error.cause

end PayloadError

namespace Level

/-- A text whose characters are the given ASCII bytes. -/
def asciiText (bytes : List UInt8) : String :=
  String.ofList (bytes.map fun byte => Char.ofNat byte.toNat)

/-- The payload of a level string. -/
def toPayload (level : String) : String :=
  asciiText (Base64.encode .urlSafe (Packing.Gzip.compress (Utf8.encode level)))

/-- White space and NUL characters, which some writers leave around a payload. -/
def isSurplus (c : Char) : Bool := isBlank c || c.toNat == 0

/-- The level string of a payload. -/
def ofPayload (payload : String) : Except PayloadError String := do
  let symbols := Utf8.encode (String.ofList (trimBoth isSurplus payload.toList))
  let packed ← (Base64.decode .urlSafe symbols).mapError .base64
  let bytes ← (Packing.Gzip.decompress packed).mapError .gzip
  (Utf8.decode bytes).mapError .utf8

end Level
end TriggerGraph
