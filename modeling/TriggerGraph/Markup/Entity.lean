import TriggerGraph.Number.Reader

/-!
# Entities

Five characters have names in markup, and every character has a number.  Escaping uses the names
only; unescaping knows both.
-/

namespace TriggerGraph.Markup

/-- Why a number does not name a character. -/
inductive CharFault where
  | sign
  | empty
  | digit
  | overflow
  | zero
  | noCharacter (code : Nat)
  deriving DecidableEq

/-- The message of such a fault. -/
def CharFault.message : CharFault → String
  | sign => "unexpected number sign"
  | empty => "cannot parse integer from empty string"
  | digit => "invalid digit found in string"
  | overflow => "number too large to fit in target type"
  | zero => "0x0 character is not permitted in XML"
  | noCharacter code => "`" ++ toString code ++ "` is not a valid codepoint"

/-- Why a text cannot be unescaped. -/
inductive EntityFault where
  | unknown (start stop : Nat) (name : String)
  | character (cause : CharFault)
  | unterminated (start stop : Nat)
  deriving DecidableEq

/-- The message of an entity fault. -/
def EntityFault.message : EntityFault → String
  | unknown start stop name =>
      "at " ++ toString start ++ ".." ++ toString stop ++ ": unrecognized entity `" ++ name ++ "`"
  | character cause => "invalid character reference: " ++ cause.message
  | unterminated start stop =>
      "at " ++ toString start ++ ".." ++ toString stop ++ ": cannot find ';' after '&'"

/-- The number of bytes that characters take. -/
def byteLength (text : List Char) : Nat := (text.map Char.utf8Size).foldl (· + ·) 0

/-- A character as it stands in character data. -/
def escapeChar (c : Char) : List Char :=
  if c = '<' then "&lt;".toList
  else if c = '>' then "&gt;".toList
  else if c = '&' then "&amp;".toList
  else if c = '\'' then "&apos;".toList
  else if c = '"' then "&quot;".toList
  else [c]

/-- A text as it stands in character data. -/
def escape (text : String) : String := String.ofList (text.toList.flatMap escapeChar)

/-- The character with a name. -/
def namedChar? (name : List Char) : Option Char :=
  if name = "lt".toList then some '<'
  else if name = "gt".toList then some '>'
  else if name = "amp".toList then some '&'
  else if name = "apos".toList then some '\''
  else if name = "quot".toList then some '"'
  else none

/-- A number below `2 ^ 32`, digit by digit. -/
def codeFrom (base value : Nat) : List Char → Except CharFault Nat
  | [] => .ok value
  | c :: rest =>
      match digitIn? base c with
      | none => .error .digit
      | some digit =>
          if value * base + digit < UInt32.size then codeFrom base (value * base + digit) rest
          else .error .overflow

/-- A number without a sign. -/
def readCode (base : Nat) (digits : List Char) : Except CharFault Nat :=
  match digits with
  | [] => .error .empty
  | '+' :: _ => .error .sign
  | '-' :: _ => .error .sign
  | _ => codeFrom base 0 digits

/-- The character with a number, in decimal or, after an `x`, in hexadecimal digits. -/
def numberedChar (digits : List Char) : Except CharFault Char := do
  let code ←
    match digits with
    | 'x' :: rest => readCode 16 rest
    | _ => readCode 10 digits
  if code = 0 then throw .zero
  if code.isValidChar then return Char.ofNat code
  throw (.noCharacter code)

/-- The character that a name or number between `&` and `;` stands for; the name begins at `offset`.
-/
def resolve (offset : Nat) (name : List Char) : Except EntityFault Char :=
  match name with
  | '#' :: digits => (numberedChar digits).mapError .character
  | _ =>
      match namedChar? name with
      | some c => .ok c
      | none => .error (.unknown offset (offset + byteLength name) (String.ofList name))

/-- The text before an ampersand as it is, then the entity, and so on; `offset` counts bytes. -/
def unescapeFrom (offset : Nat) (text : List Char) : Except EntityFault (List Char) :=
  let plain := text.takeWhile (· != '&')
  match _split : text.dropWhile (· != '&') with
  | [] => .ok plain
  | _ :: rest =>
      let start := offset + byteLength plain
      let name := rest.takeWhile fun c => c != ';' && c != '&'
      match _close : rest.dropWhile fun c => c != ';' && c != '&' with
      | ';' :: after => do
          let c ← resolve (start + 1) name
          let more ← unescapeFrom (start + byteLength name + 2) after
          return plain ++ c :: more
      | _ => .error (.unterminated start (offset + byteLength text))
termination_by text.length
decreasing_by
  have first := (List.dropWhile_suffix (l := text) (· != '&')).length_le
  have second := (List.dropWhile_suffix (l := rest) fun c => c != ';' && c != '&').length_le
  rw [_split] at first
  rw [_close] at second
  simp only [List.length_cons] at first second
  omega

/-- The text that character data stands for. -/
def unescape (raw : String) : Except EntityFault String :=
  (unescapeFrom 0 raw.toList).map String.ofList

end TriggerGraph.Markup
