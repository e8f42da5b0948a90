import TriggerGraph.Ids.Reference
import TriggerGraph.Number.Reader

/-!
# Reading references from JSON

A reference is an object with a domain and a value, or an array of the two.  Unknown members are
passed over, but their text has to be well formed.
-/

namespace TriggerGraph.Json

/-- Blanks between tokens. -/
def isSpace (c : Char) : Bool := c == ' ' || c == '\n' || c == '\t' || c == '\r'

/-- The text behind leading blanks. -/
def skipSpace (text : List Char) : List Char := text.dropWhile isSpace

/-- The text behind blanks and one expected character. -/
def expect? (c : Char) (text : List Char) : Option (List Char) :=
  match skipSpace text with
  | [] => none
  | first :: rest => if first = c then some rest else none

/-- The value of a hexadecimal digit of either case. -/
def hexValue? (c : Char) : Option Nat :=
  if '0' ≤ c && c ≤ '9' then some (c.toNat - 48)
  else if 'a' ≤ c && c ≤ 'f' then some (c.toNat - 87)
  else if 'A' ≤ c && c ≤ 'F' then some (c.toNat - 55)
  else none

/-- Four hexadecimal digits as one number. -/
def readUnit? : List Char → Option (Nat × List Char)
  | a :: b :: c :: d :: rest => do
      let a ← hexValue? a
      let b ← hexValue? b
      let c ← hexValue? c
      let d ← hexValue? d
      return (((a * 16 + b) * 16 + c) * 16 + d, rest)
  | _ => none

/-- A piece of a quoted text: a character, or half of a surrogate pair. -/
inductive Piece where
  | char (c : Char)
  | unit (code : Nat)

/-- The character of a one-letter escape. -/
def shortEscape? : Char → Option Char
  | '"' => some '"'
  | '\\' => some '\\'
  | '/' => some '/'
  | 'b' => some (Char.ofNat 8)
  | 'f' => some (Char.ofNat 12)
  | 'n' => some '\n'
  | 'r' => some '\r'
  | 't' => some '\t'
  | _ => none

/-- Whether a code is half of a surrogate pair. -/
def isSurrogate (code : Nat) : Bool := 0xD800 ≤ code && code ≤ 0xDFFF

/-- The pieces up to the closing quote, and what follows it. -/
def readPieces? : List Char → Option (List Piece × List Char)
  | [] => none
  | '"' :: rest => some ([], rest)
  | '\\' :: 'u' :: a :: b :: c :: d :: rest =>
      match readUnit? [a, b, c, d] with
      | none => none
      | some (code, _) =>
          let piece := if isSurrogate code then .unit code else .char (Char.ofNat code)
          (readPieces? rest).map fun (pieces, after) => (piece :: pieces, after)
  | '\\' :: c :: rest =>
      match shortEscape? c with
      | none => none
      | some c => (readPieces? rest).map fun (pieces, after) => (.char c :: pieces, after)
  | c :: rest =>
      if c.toNat < 32 || c == '\\' then none
      else (readPieces? rest).map fun (pieces, after) => (.char c :: pieces, after)

/-- The characters of a quoted text, surrogates joined in pairs; a lone one is refused. -/
def joinPieces? : List Piece → Option (List Char)
  | [] => some []
  | .char c :: rest => (joinPieces? rest).map (c :: ·)
  | .unit high :: .unit low :: rest =>
      if 0xD800 ≤ high && high ≤ 0xDBFF && 0xDC00 ≤ low && low ≤ 0xDFFF then
        (joinPieces? rest).map
          (Char.ofNat (0x10000 + (high - 0xD800) * 0x400 + (low - 0xDC00)) :: ·)
      else none
  | .unit _ :: _ => none

/-- A quoted text behind blanks. -/
def readString? (text : List Char) : Option (String × List Char) := do
  let (pieces, rest) ← readPieces? (← expect? '"' text)
  return (String.ofList (← joinPieces? pieces), rest)

/-- Digits without a leading zero, and what follows them. -/
def readDigits? : List Char → Option (List Char × List Char)
  | '0' :: rest =>
      match rest with
      | c :: _ => if isDigit c then none else some (['0'], rest)
      | [] => some (['0'], [])
  | text =>
      let digits := text.takeWhile isDigit
      if digits.isEmpty then none else some (digits, text.dropWhile isDigit)

/-- At least one digit behind a point or an exponent mark. -/
def skipDigits? (text : List Char) : Option (List Char) :=
  if (text.takeWhile isDigit).isEmpty then none else some (text.dropWhile isDigit)

/-- The text behind a fraction, if there is one. -/
def skipFraction? : List Char → Option (List Char)
  | '.' :: rest => skipDigits? rest
  | text => some text

/-- The text behind an exponent, if there is one. -/
def skipExponent? : List Char → Option (List Char)
  | mark :: rest =>
      if mark = 'e' || mark = 'E' then
        match rest with
        | sign :: digits =>
            skipDigits? (if sign = '+' || sign = '-' then digits else rest)
        | [] => none
      else some (mark :: rest)
  | [] => some []

/-- The text behind a number. -/
def skipNumber? (text : List Char) : Option (List Char) := do
  let unsigned := match text with
    | '-' :: rest => rest
    | other => other
  let (_, rest) ← readDigits? unsigned
  skipExponent? (← skipFraction? rest)

/-- The text behind an expected word. -/
def skipWord? (word text : List Char) : Option (List Char) :=
  if text.take word.length = word then some (text.drop word.length) else none

mutual

/-- The text behind one value, nested no deeper than the fuel allows. -/
def skipValue? : (fuel : Nat) → List Char → Option (List Char)
  | 0, _ => none
  | fuel + 1, text =>
      match skipSpace text with
      | '"' :: rest => (readPieces? rest).map (·.2)
      | '[' :: rest =>
          match expect? ']' rest with
          | some rest => some rest
          | none => skipItems? fuel rest
      | '\x7b' :: rest =>
          match expect? '\x7d' rest with
          | some rest => some rest
          | none => skipMembers? fuel rest
      | 't' :: rest => skipWord? "rue".toList rest
      | 'f' :: rest => skipWord? "alse".toList rest
      | 'n' :: rest => skipWord? "ull".toList rest
      | other => skipNumber? other

/-- The text behind the items of an array and its closing bracket. -/
def skipItems? : (fuel : Nat) → List Char → Option (List Char)
  | 0, _ => none
  | fuel + 1, text => do
      let rest ← skipValue? fuel text
      match skipSpace rest with
      | ',' :: rest => skipItems? fuel rest
      | ']' :: rest => some rest
      | _ => none

/-- The text behind the members of an object and its closing brace. -/
def skipMembers? : (fuel : Nat) → List Char → Option (List Char)
  | 0, _ => none
  | fuel + 1, text => do
      let (_, rest) ← readPieces? (← expect? '"' text)
      let rest ← skipValue? fuel (← expect? ':' rest)
      match skipSpace rest with
      | ',' :: rest => skipMembers? fuel rest
      | '\x7d' :: rest => some rest
      | _ => none

end

/-- A domain: its name, or an object that maps its name to null. -/
def readDomain? (text : List Char) : Option (Domain × List Char) :=
  match skipSpace text with
  | '"' :: _ => do
      let (name, rest) ← readString? text
      return (← Domain.ofName? name, rest)
  | '\x7b' :: inside => do
      let (name, rest) ← readString? inside
      let domain ← Domain.ofName? name
      let rest ← skipWord? "null".toList (skipSpace (← expect? ':' rest))
      return (domain, ← expect? '\x7d' rest)
  | _ => none

/-- An id: digits that are neither negative nor followed by a fraction or an exponent. -/
def readId? (text : List Char) : Option (UInt32 × List Char) := do
  let (digits, rest) ← readDigits? (skipSpace text)
  let value ← readUInt32? digits
  match rest with
  | c :: _ => if c = '.' || c = 'e' || c = 'E' then none else some (value, rest)
  | [] => some (value, [])

/-- The members of a reference, each known one at most once. -/
def readMembers? : (fuel : Nat) → Option Domain → Option UInt32 → List Char →
    Option (Reference × List Char)
  | 0, _, _, _ => none
  | fuel + 1, domain, value, text => do
      let (key, rest) ← readString? text
      let rest ← expect? ':' rest
      let (domain, value, rest) ←
        if key = "domain" then
          if domain.isSome then none
          else (readDomain? rest).map fun (domain, rest) => (some domain, value, rest)
        else if key = "value" then
          if value.isSome then none
          else (readId? rest).map fun (value, rest) => (domain, some value, rest)
        else (skipValue? rest.length rest).map fun rest => (domain, value, rest)
      match skipSpace rest with
      | ',' :: rest => readMembers? fuel domain value rest
      | '\x7d' :: rest => return (⟨← domain, ← value⟩, rest)
      | _ => none

/-- A reference in either of its two forms. -/
def readReferenceHead? (text : List Char) : Option (Reference × List Char) :=
  match skipSpace text with
  | '[' :: rest => do
      let (domain, rest) ← readDomain? rest
      let (value, rest) ← readId? (← expect? ',' rest)
      return (⟨domain, value⟩, ← expect? ']' rest)
  | '\x7b' :: rest => readMembers? text.length none none rest
  | _ => none

/-- A text that holds one reference and nothing else. -/
def readReference? (text : String) : Option Reference := do
  let (reference, rest) ← readReferenceHead? text.toList
  if (skipSpace rest).isEmpty then some reference else none

end TriggerGraph.Json
