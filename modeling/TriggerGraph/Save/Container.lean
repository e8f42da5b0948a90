import TriggerGraph.Packing.Base64
import TriggerGraph.Packing.Gzip
import TriggerGraph.Text.Blank
import TriggerGraph.Text.Utf8

/-!
# Save containers

A save file holds its document compressed, written in base64, and masked byte by byte.  Reading
accepts both alphabets, and white space and NUL bytes anywhere.
-/

namespace TriggerGraph

/-- Why bytes are not a container. -/
inductive ContainerError where
  | base64 (cause : Base64.Fault)
  | gzip (cause : Packing.Gzip.Fault)
  | utf8 (cause : Utf8.Fault)
  deriving DecidableEq

namespace ContainerError

/-- The message of the layer that failed. -/
def cause : ContainerError → String
  | base64 cause => cause.message
  | gzip cause => cause.message
  | utf8 cause => cause.message

/-- The message of a container error. -/
def message (error : ContainerError) : String :=
  let layer := match error with
    | base64 _ => "container is not valid base64: "
    | gzip _ => "container stream error: "
    | utf8 _ => "container text is not UTF-8: "
  layer ++ error.cause

end ContainerError

namespace Container

/-- Mask a byte, or unmask it. -/
def mask (byte : UInt8) : UInt8 := byte ^^^ 11

/-- Bytes that are skipped when reading. -/
def isSkipped (byte : UInt8) : Bool := isBlankByte byte || byte == 0

/-- The standard symbol for a symbol of either alphabet. -/
def standardSymbol (byte : UInt8) : UInt8 :=
  if byte = 45 then 43 else if byte = 95 then 47 else byte

/-- The base64 text of a container. -/
def unmask (bytes : List UInt8) : List UInt8 :=
  ((bytes.map mask).filter fun byte => !isSkipped byte).map standardSymbol

/-- The document in a container. -/
def decrypt (bytes : List UInt8) : Except ContainerError String := do
  let packed ← (Base64.decode .standard (unmask bytes)).mapError .base64
  let text ← (Packing.Gzip.decompress packed).mapError .gzip
  (Utf8.decode text).mapError .utf8

/-- The container of a document. -/
def encrypt (document : String) : List UInt8 :=
  (Base64.encode .standard (Packing.Gzip.compress (Utf8.encode document))).map mask

end Container
end TriggerGraph
