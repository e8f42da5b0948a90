/-!
# Faults of markup

Each fault has a cause, and a class that its message begins with.
-/

namespace TriggerGraph.Markup

/-- Why a text is not markup. -/
inductive Fault where
  | unclosedTag
  | unclosedComment
  | unclosedCData
  | unclosedDoctype
  | unclosedInstruction
  | unknownMarkup
  | unclosedReference
  | mismatchedEnd (expected found : String)
  | unmatchedEnd (name : String)
  | namelessDoctype
  | missingVersion
  | versionNotFirst (first : String)
  | keyWithoutEquals (position : Nat)
  | equalsWithoutValue (position : Nat)
  | unquotedValue (position : Nat)
  | unclosedQuote (position : Nat) (quote : Char)
  deriving DecidableEq

namespace Fault

/-- Something begun by one mark does not end with another. -/
def unclosedText (what mark : String) : String :=
  what ++ " not closed: `" ++ mark ++ "` not found before end of input"

/-- What is wrong. -/
def cause : Fault → String
  | unclosedTag => unclosedText "tag" ">"
  | unclosedComment => unclosedText "comment" "-->"
  | unclosedCData => unclosedText "CDATA" "]]>"
  | unclosedDoctype => unclosedText "DOCTYPE" ">"
  | unclosedInstruction => unclosedText "processing instruction or xml declaration" "?>"
  | unknownMarkup => "unknown or missed symbol in markup"
  | unclosedReference => unclosedText "entity or character reference" ";"
  | mismatchedEnd expected found =>
      "expected `</" ++ expected ++ ">`, but `</" ++ found ++ ">` was found"
  | unmatchedEnd name => "close tag `</" ++ name ++ ">` does not match any open tag"
  | namelessDoctype =>
      "`<!DOCTYPE>` declaration does not contain a name of a document type"
  | missingVersion => "an XML declaration does not contain `version` attribute"
  | versionNotFirst first =>
      "an XML declaration must start with `version` attribute, but in starts with `" ++ first ++ "`"
  | keyWithoutEquals position =>
      "position " ++ toString position ++
        ": attribute key must be directly followed by `=` or space"
  | equalsWithoutValue position =>
      "position " ++ toString position ++ ": `=` must be followed by an attribute value"
  | unquotedValue position =>
      "position " ++ toString position ++ ": attribute value must be enclosed in `\"` or `'`"
  | unclosedQuote position quote =>
      "position " ++ toString position ++ ": missing closing quote `" ++ quote.toString ++
        "` in attribute value"

/-- The class of a fault. -/
def category : Fault → String
  | unclosedTag | unclosedComment | unclosedCData | unclosedDoctype | unclosedInstruction
  | unknownMarkup => "syntax error"
  | unclosedReference | mismatchedEnd .. | unmatchedEnd _ | namelessDoctype | missingVersion
  | versionNotFirst _ => "ill-formed document"
  | keyWithoutEquals _ | equalsWithoutValue _ | unquotedValue _ | unclosedQuote .. =>
      "error while parsing attribute"

/-- The message of a fault. -/
def message (fault : Fault) : String := fault.category ++ ": " ++ fault.cause

end Fault
end TriggerGraph.Markup
