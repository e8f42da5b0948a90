/-!
# UTF-8

Bytes are read one character at a time.  A fault tells how many bytes were read before it, and how
many bytes cannot begin any character; without such a number the text merely ends too early.
-/

namespace TriggerGraph.Utf8

/-- Where and how bytes stop being UTF-8. -/
structure Fault where
  /-- The number of bytes read before the fault. -/
  offset : Nat
  /-- The length of the invalid sequence; none when the bytes end inside a character. -/
  length : Option Nat
  deriving DecidableEq

/-- The message of a fault. -/
def Fault.message (fault : Fault) : String :=
  match fault.length with
  | some length =>
      "invalid utf-8 sequence of " ++ toString length ++ " bytes from index " ++
        toString fault.offset
  | none => "incomplete utf-8 byte sequence from index " ++ toString fault.offset

/-- A byte that continues a character. -/
def isContinuation (b : UInt8) : Bool := 0x80 ≤ b && b ≤ 0xBF

/-- A byte that may follow the first byte of a three-byte character. -/
def isSecondOfThree (a b : UInt8) : Bool :=
  (if a = 0xE0 then (0xA0 : UInt8) else 0x80) ≤ b && b ≤ (if a = 0xED then 0x9F else 0xBF)

/-- A byte that may follow the first byte of a four-byte character. -/
def isSecondOfFour (a b : UInt8) : Bool :=
  (if a = 0xF0 then (0x90 : UInt8) else 0x80) ≤ b && b ≤ (if a = 0xF4 then 0x8F else 0xBF)

/-- The six low bits of a continuation byte. -/
def low (b : UInt8) : Nat := b.toNat % 64

/-- The characters of a run of bytes, the first of which stands at `offset`. -/
def decodeFrom (offset : Nat) : List UInt8 → Except Fault (List Char)
  | [] => .ok []
  | a :: rest =>
      if a < 0x80 then (decodeFrom (offset + 1) rest).map (Char.ofNat a.toNat :: ·)
      else if 0xC2 ≤ a && a ≤ 0xDF then
        match rest with
        | [] => .error ⟨offset, none⟩
        | b :: rest =>
            if isContinuation b then
              (decodeFrom (offset + 2) rest).map
                (Char.ofNat ((a.toNat - 0xC0) * 64 + low b) :: ·)
            else .error ⟨offset, some 1⟩
      else if 0xE0 ≤ a && a ≤ 0xEF then
        match rest with
        | [] => .error ⟨offset, none⟩
        | b :: rest =>
            if !isSecondOfThree a b then .error ⟨offset, some 1⟩
            else
              match rest with
              | [] => .error ⟨offset, none⟩
              | c :: rest =>
                  if isContinuation c then
                    (decodeFrom (offset + 3) rest).map
                      (Char.ofNat (((a.toNat - 0xE0) * 64 + low b) * 64 + low c) :: ·)
                  else .error ⟨offset, some 2⟩
      else if 0xF0 ≤ a && a ≤ 0xF4 then
        match rest with
        | [] => .error ⟨offset, none⟩
        | b :: rest =>
            if !isSecondOfFour a b then .error ⟨offset, some 1⟩
            else
              match rest with
              | [] => .error ⟨offset, none⟩
              | c :: rest =>
                  if !isContinuation c then .error ⟨offset, some 2⟩
                  else
                    match rest with
                    | [] => .error ⟨offset, none⟩
                    | d :: rest =>
                        if isContinuation d then
                          (decodeFrom (offset + 4) rest).map
                            (Char.ofNat
                              ((((a.toNat - 0xF0) * 64 + low b) * 64 + low c) * 64 + low d) :: ·)
                        else .error ⟨offset, some 3⟩
      else .error ⟨offset, some 1⟩

/-- The text of a run of bytes. -/
def decode (bytes : List UInt8) : Except Fault String :=
  (decodeFrom 0 bytes).map String.ofList

/-- The bytes of a text. -/
def encode (text : String) : List UInt8 := text.toList.flatMap String.utf8EncodeChar

end TriggerGraph.Utf8

namespace TriggerGraph

/-- A text without the mark of its byte order. -/
def dropMark : List Char → List Char
  | '\uFEFF' :: rest => rest
  | text => text

end TriggerGraph
