import TriggerGraph.Number.Reader
import TriggerGraph.Text.Utf8
import TriggerGraph.Toml.Table

/-!
# Reading settings files

Every reader takes characters from the front of a text and gives a result together with what follows
it, or nothing if the text does not begin as it should.  Fuel that exceeds the length of the text is
enough for every reader that asks for it.
-/

namespace TriggerGraph.Toml

/-- A reader of results of one kind. -/
abbrev Reader (α : Type) := List Char → Option (α × List Char)

/-! ## Space -/

/-- Blank or tab. -/
def isGap (c : Char) : Bool := c == ' ' || c == '\t'

/-- What follows blanks and tabs. -/
def skipGap (text : List Char) : List Char := text.dropWhile isGap

/-- A character that may stand in text: no control but the tab. -/
def isPlain (c : Char) : Bool := c == '\t' || (0x20 ≤ c.toNat && c.toNat != 0x7F)

/-- What follows the end of a line. -/
def skipLineEnd : List Char → Option (List Char)
  | '\n' :: rest => some rest
  | '\r' :: '\n' :: rest => some rest
  | _ => none

/-- What follows a comment, if there is one. -/
def skipComment : List Char → List Char
  | '#' :: rest => rest.dropWhile isPlain
  | text => text

/-- What follows the rest of a line that holds nothing but a comment. -/
def skipLine (text : List Char) : Option (List Char) :=
  match skipComment (skipGap text) with
  | [] => some []
  | rest => skipLineEnd rest

/-- What follows blanks, comments and ends of lines. -/
def skipLines : (fuel : Nat) → List Char → List Char
  | 0, text => text
  | fuel + 1, text =>
      let rest := skipComment (skipGap text)
      match skipLineEnd rest with
      | some rest => skipLines fuel rest
      | none => rest

/-! ## Strings -/

/-- A character given by its number in hexadecimal digits. -/
def readCodePoint (count : Nat) (text : List Char) : Option (Char × List Char) := do
  let digits := text.take count
  if digits.length < count then failure
  let values ← digits.mapM (digitIn? 16)
  let code := values.foldl (fun value digit => 16 * value + digit) 0
  if code.isValidChar then return (Char.ofNat code, text.drop count) else failure

/-- The character that an escape stands for, read behind its backslash. -/
def readEscape : Reader Char
  | 'b' :: rest => some ('\x08', rest)
  | 't' :: rest => some ('\t', rest)
  | 'n' :: rest => some ('\n', rest)
  | 'f' :: rest => some ('\x0c', rest)
  | 'r' :: rest => some ('\r', rest)
  | '"' :: rest => some ('"', rest)
  | '\\' :: rest => some ('\\', rest)
  | 'u' :: rest => readCodePoint 4 rest
  | 'U' :: rest => readCodePoint 8 rest
  | _ => none

/-- A string with escapes on one line, read behind its opening quote. -/
def readBasic : (fuel : Nat) → Reader (List Char)
  | 0, _ => none
  | fuel + 1, text =>
      match text with
      | '"' :: rest => some ([], rest)
      | '\\' :: rest => do
          let (c, rest) ← readEscape rest
          let (more, rest) ← readBasic fuel rest
          return (c :: more, rest)
      | c :: rest => do
          if !isPlain c then failure
          let (more, rest) ← readBasic fuel rest
          return (c :: more, rest)
      | [] => none

/-- A string without escapes on one line, read behind its opening quote. -/
def readLiteral (text : List Char) : Option (List Char × List Char) :=
  match text.dropWhile fun c => isPlain c && c != '\'' with
  | '\'' :: rest => some (text.takeWhile fun c => isPlain c && c != '\'', rest)
  | _ => none

/-- The end of a string over several lines: three quotes, and up to two before them that belong to
the string. -/
def readClosing (quote : Char) (text : List Char) : Option (List Char × List Char) :=
  let quotes := text.takeWhile (· == quote)
  if quotes.length < 3 then none
  else some (List.replicate (min (quotes.length - 3) 2) quote, text.drop (min quotes.length 5))

/-- What follows a backslash at the end of a line: the space up to the next other character. -/
def skipFold (fuel : Nat) (text : List Char) : Option (List Char) := do
  let rest ← skipLineEnd (skipGap text)
  return go fuel rest
where
  /-- Skip blanks and ends of lines. -/
  go : (fuel : Nat) → List Char → List Char
    | 0, text => text
    | fuel + 1, text =>
        match skipLineEnd (skipGap text) with
        | some rest => go fuel rest
        | none => skipGap text

/-- A string over several lines, read behind its opening quotes. -/
def readLong (quote : Char) (escapes : Bool) : (fuel : Nat) → Reader (List Char)
  | 0, _ => none
  | fuel + 1, text =>
      match readClosing quote text with
      | some closing => some closing
      | none =>
          match skipLineEnd text with
          | some rest => do
              let (more, rest) ← readLong quote escapes fuel rest
              return ('\n' :: more, rest)
          | none =>
              match text with
              | [] => none
              | c :: rest =>
                  if escapes && c == '\\' then
                    match readEscape rest with
                    | some (c, rest) => do
                        let (more, rest) ← readLong quote escapes fuel rest
                        return (c :: more, rest)
                    | none => do readLong quote escapes fuel (← skipFold fuel rest)
                  else do
                    if !isPlain c then failure
                    let (more, rest) ← readLong quote escapes fuel rest
                    return (c :: more, rest)

/-- What follows the end of a line, if the text begins with one. -/
def skipFirstLineEnd (text : List Char) : List Char := (skipLineEnd text).getD text

/-- A string of any of the four kinds. -/
def readString (fuel : Nat) (text : List Char) : Option (List Char × List Char) :=
  match text with
  | '"' :: '"' :: '"' :: rest => readLong '"' true fuel (skipFirstLineEnd rest)
  | '\'' :: '\'' :: '\'' :: rest => readLong '\'' false fuel (skipFirstLineEnd rest)
  | '"' :: rest => readBasic fuel rest
  | '\'' :: rest => readLiteral rest
  | _ => none

/-! ## Keys -/

/-- A character of a key without quotes. -/
def isBare (c : Char) : Bool := c.isAlphanum || c == '-' || c == '_'

/-- One part of a key. -/
def readPart (fuel : Nat) : Reader String
  | '"' :: rest => (readBasic fuel rest).map fun (key, rest) => (String.ofList key, rest)
  | '\'' :: rest => (readLiteral rest).map fun (key, rest) => (String.ofList key, rest)
  | text =>
      match text.takeWhile isBare with
      | [] => none
      | key => some (String.ofList key, text.dropWhile isBare)

/-- The parts of a key between dots. -/
def readParts : (fuel : Nat) → Reader (List String)
  | 0, _ => none
  | fuel + 1, text => do
      let (part, rest) ← readPart (fuel + 1) (skipGap text)
      match skipGap rest with
      | '.' :: rest => do
          let (parts, rest) ← readParts fuel rest
          return (part :: parts, rest)
      | rest => return ([part], rest)

/-- How deep keys, arrays and tables may be nested. -/
def depthLimit : Nat := 80

/-- A key: a path and a last part. -/
def readKey (fuel : Nat) (text : List Char) : Option ((List String × String) × List Char) := do
  let (parts, rest) ← readParts fuel text
  if depthLimit ≤ parts.length then failure
  let last ← parts.getLast?
  return ((parts.dropLast, last), rest)

/-! ## Numbers and moments -/

/-- Further digits of a base, each perhaps behind an underscore. -/
def moreDigits (isDigit : Char → Bool) : List Char → List Char × List Char
  | '_' :: c :: rest =>
      if isDigit c then
        let (digits, after) := moreDigits isDigit rest
        (c :: digits, after)
      else ([], '_' :: c :: rest)
  | c :: rest =>
      if isDigit c then
        let (digits, after) := moreDigits isDigit rest
        (c :: digits, after)
      else ([], c :: rest)
  | [] => ([], [])

/-- Digits of a base, single underscores between them left out. -/
def readDigits (isDigit : Char → Bool) : Reader (List Char)
  | c :: rest =>
      if isDigit c then
        let (digits, after) := moreDigits isDigit rest
        some (c :: digits, after)
      else none
  | [] => none

/-- Decimal digits. -/
def readDecimals : Reader (List Char) := readDigits isDigit

/-- A sign, if there is one. -/
def readSign : List Char → List Char × List Char
  | '+' :: rest => (['+'], rest)
  | '-' :: rest => (['-'], rest)
  | text => ([], text)

/-- A whole number in decimal digits, without leading zeros. -/
def readWhole (text : List Char) : Option (List Char × List Char) := do
  let (sign, rest) := readSign text
  match rest with
  | '0' :: rest => return (sign ++ ['0'], rest)
  | _ => do
      let (digits, rest) ← readDecimals rest
      return (sign ++ digits, rest)

/-- A fraction behind its point. -/
def readFraction : Reader (List Char)
  | '.' :: rest => (readDecimals rest).map fun (digits, rest) => ('.' :: digits, rest)
  | _ => none

/-- An exponent. -/
def readExponent : Reader (List Char)
  | c :: rest => do
      if c != 'e' && c != 'E' then failure
      let (sign, rest) := readSign rest
      let (digits, rest) ← readDecimals rest
      return ('e' :: sign ++ digits, rest)
  | [] => none

/-- A number with a fraction or an exponent; one too large is refused. -/
def readFloat (text : List Char) : Option (Double × List Char) := do
  let (whole, rest) ← readWhole text
  let (digits, rest) ←
    match readFraction rest with
    | some (fraction, rest) =>
        match readExponent rest with
        | some (exponent, rest) => pure (whole ++ fraction ++ exponent, rest)
        | none => pure (whole ++ fraction, rest)
    | none => do
        let (exponent, rest) ← readExponent rest
        pure (whole ++ exponent, rest)
  let x ← readDouble? digits
  if x = .infinity false then failure
  return (x, rest)

/-- Infinity or a number that is none. -/
def readSpecial (text : List Char) : Option (Double × List Char) :=
  let (sign, rest) := readSign text
  match rest with
  | 'i' :: 'n' :: 'f' :: rest => some (.infinity (sign == ['-']), rest)
  | 'n' :: 'a' :: 'n' :: rest => some (.nan, rest)
  | _ => none

/-- A whole number behind the mark of its base. -/
def readBased (base : Nat) (text : List Char) : Option (Int × List Char) := do
  let (digits, rest) ← readDigits (fun c => (digitIn? base c).isSome) text
  let values ← digits.mapM (digitIn? base)
  return ((values.foldl (fun value digit => base * value + digit) 0 : Nat), rest)

/-- A whole number of 64 bits in any base. -/
def readWholeNumber (text : List Char) : Option (Int × List Char) := do
  let (n, rest) ←
    match text with
    | '0' :: 'x' :: rest => readBased 16 rest
    | '0' :: 'o' :: rest => readBased 8 rest
    | '0' :: 'b' :: rest => readBased 2 rest
    | _ => do
        let (digits, rest) ← readWhole text
        pure (← readInteger? digits, rest)
  if Int64.minValue.toInt ≤ n ∧ n ≤ Int64.maxValue.toInt then return (n, rest) else failure

/-- A number of fixed length within bounds. -/
def readField (count low high : Nat) (text : List Char) : Option (Nat × List Char) := do
  let digits := text.take count
  if digits.length < count || !digits.all isDigit then failure
  let n := naturalValue digits
  if low ≤ n && n ≤ high then return (n, text.drop count) else failure

/-- What follows an expected character. -/
def skipChar (expected : Char) : List Char → Option (List Char)
  | c :: rest => if c = expected then some rest else none
  | [] => none

/-- The number of days in a month. -/
def daysIn (year month : Nat) : Nat :=
  if month = 2 then
    if year % 4 = 0 ∧ (year % 100 ≠ 0 ∨ year % 400 = 0) then 29 else 28
  else if month = 4 ∨ month = 6 ∨ month = 9 ∨ month = 11 then 30
  else 31

/-- What follows a date. -/
def skipDate (text : List Char) : Option (List Char) := do
  let (year, rest) ← readField 4 0 9999 text
  let (month, rest) ← readField 2 1 12 (← skipChar '-' rest)
  let (_, rest) ← readField 2 1 (daysIn year month) (← skipChar '-' rest)
  return rest

/-- What follows a time. -/
def skipTime (text : List Char) : Option (List Char) := do
  let (_, rest) ← readField 2 0 23 text
  let (_, rest) ← readField 2 0 59 (← skipChar ':' rest)
  let (_, rest) ← readField 2 0 60 (← skipChar ':' rest)
  match rest with
  | '.' :: c :: rest => if isDigit c then return rest.dropWhile isDigit else failure
  | '.' :: [] => failure
  | _ => return rest

/-- What follows the offset of a time zone. -/
def skipOffset (text : List Char) : Option (List Char) :=
  match text with
  | c :: rest =>
      if c = 'Z' ∨ c = 'z' then some rest
      else if c = '+' ∨ c = '-' then do
        let (_, rest) ← readField 2 0 23 rest
        let (_, rest) ← readField 2 0 59 (← skipChar ':' rest)
        return rest
      else none
  | [] => none

/-- What follows a date, a time, or both. -/
def skipMoment (text : List Char) : Option (List Char) :=
  match skipDate text with
  | some rest =>
      match rest with
      | c :: after =>
          if c = 'T' ∨ c = 't' ∨ c = ' ' then
            match skipTime after with
            | some after => some ((skipOffset after).getD after)
            | none => some rest
          else some rest
      | [] => some []
  | none => skipTime text

/-- A date, a time or a number. -/
def readNumber (text : List Char) : Option (Value × List Char) :=
  (skipMoment text).map (fun rest => (.moment, rest))
  <|> (readFloat text).map (fun (x, rest) => (.float x, rest))
  <|> (readSpecial text).map (fun (x, rest) => (.float x, rest))
  <|> (readWholeNumber text).map (fun (n, rest) => (.integer n, rest))

/-! ## Values -/

/-- What follows a word. -/
def skipWord (word text : List Char) : Option (List Char) :=
  if word.isPrefixOf text then some (text.drop word.length) else none

mutual

/-- A value.  `depth` tells how many arrays and tables it lies in. -/
def readValue (depth : Nat) : (fuel : Nat) → Reader Value
  | 0, _ => none
  | fuel + 1, text =>
      match text with
      | [] => none
      | '[' :: rest =>
          if depthLimit ≤ depth + 1 then none
          else (readItems (depth + 1) fuel rest).map fun rest => (.array, rest)
      | '\x7b' :: rest =>
          if depthLimit ≤ depth + 1 then none
          else
            match skipGap rest with
            | '\x7d' :: rest => some (.inlineTable, rest)
            | _ => (readPairs (depth + 1) fuel .empty rest).map fun rest => (.inlineTable, rest)
      | c :: _ =>
          if c = '"' ∨ c = '\'' then
            (readString fuel text).map fun (s, rest) => (.string (String.ofList s), rest)
          else if c = 't' then
            (skipWord "true".toList text).map fun rest => (.boolean true, rest)
          else if c = 'f' then
            (skipWord "false".toList text).map fun rest => (.boolean false, rest)
          else if c = '+' ∨ c = '-' ∨ c = 'i' ∨ c = 'n' ∨ isDigit c then readNumber text
          else none

/-- What follows the items of an array and its closing bracket. -/
def readItems (depth : Nat) : (fuel : Nat) → List Char → Option (List Char)
  | 0, _ => none
  | fuel + 1, text =>
      match skipLines fuel text with
      | ']' :: rest => some rest
      | text =>
          match readValue depth fuel text with
          | none => none
          | some (_, rest) =>
              match skipLines fuel rest with
              | ',' :: rest => readItems depth fuel rest
              | ']' :: rest => some rest
              | _ => none

/-- What follows the pairs of a table on one line and its closing brace. -/
def readPairs (depth : Nat) : (fuel : Nat) → Table → List Char → Option (List Char)
  | 0, _, _ => none
  | fuel + 1, table, text =>
      match readKey fuel text with
      | none => none
      | some ((path, key), rest) =>
          match skipChar '=' rest with
          | none => none
          | some rest =>
              match readValue depth fuel (skipGap rest) with
              | none => none
              | some (value, rest) =>
                  match table.assign path key (.value value) with
                  | none => none
                  | some table =>
                      match skipGap rest with
                      | ',' :: rest => readPairs depth fuel table rest
                      | '\x7d' :: rest => some rest
                      | _ => none

end

/-! ## Files -/

/-- The key in a header, read behind its opening brackets, up to its closing brackets. -/
def readHeader (fuel : Nat) (closing text : List Char) : Option (List String × List Char) := do
  let ((path, key), rest) ← readKey fuel text
  let rest ← skipWord closing rest
  return (path ++ [key], ← skipLine rest)

/-- A key with its value, and the rest of the line. -/
def readAssignment (fuel : Nat) (progress : Progress) (text : List Char) :
    Option (Progress × List Char) := do
  let ((path, key), rest) ← readKey fuel text
  let rest ← skipChar '=' rest
  let (value, rest) ← readValue 0 fuel (skipGap rest)
  return (← progress.assign path key (.value value), ← skipLine rest)

/-- The lines of a file. -/
def readFile : (fuel : Nat) → Progress → List Char → Option Table
  | 0, _, _ => none
  | fuel + 1, progress, text =>
      match skipGap text with
      | [] => progress.finish
      | '[' :: '[' :: rest => do
          let (path, rest) ← readHeader fuel "]]".toList rest
          readFile fuel (← progress.openRow path) rest
      | '[' :: rest => do
          let (path, rest) ← readHeader fuel "]".toList rest
          readFile fuel (← progress.openTable path) rest
      | c :: rest =>
          if c = '#' ∨ c = '\n' ∨ c = '\r' then do readFile fuel progress (← skipLine (c :: rest))
          else do
            let (progress, rest) ← readAssignment fuel progress (c :: rest)
            readFile fuel progress rest

/-- The table of a settings file. -/
def parse (text : String) : Option Table :=
  let text := dropMark text.toList
  readFile (text.length + 1) .start text

end TriggerGraph.Toml
