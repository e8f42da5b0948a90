/-!
# Splitting and joining text

Text is cut at every occurrence of one character, so `n` occurrences give `n + 1` pieces, and
joining the pieces with that character gives the text back.
-/

namespace TriggerGraph

/-- The pieces between the occurrences of a character. -/
def splitAtChar (separator : Char) : List Char → List (List Char)
  | [] => [[]]
  | c :: rest =>
      if c = separator then [] :: splitAtChar separator rest
      else
        match splitAtChar separator rest with
        | [] => [[c]]
        | piece :: pieces => (c :: piece) :: pieces

/-- Pieces joined by a character. -/
def joinWithChar (separator : Char) : List (List Char) → List Char
  | [] => []
  | [piece] => piece
  | piece :: pieces => piece ++ separator :: joinWithChar separator pieces

end TriggerGraph
