import TriggerGraph.Markup.Entity
import TriggerGraph.Markup.Fault

/-!
# Pieces of markup

A text is cut into tags, character data and other markup.  The contents of a piece are kept as they
stand, because what nobody changes is to be written back unchanged.
-/

namespace TriggerGraph.Markup

/-- A piece of markup with its raw contents. -/
inductive Piece where
  | text (raw : List Char)
  | opening (start : List Char)
  | empty (start : List Char)
  | closing (name : List Char)
  | cdata (raw : List Char)
  | comment (raw : List Char)
  | declaration (version : List Char)
  | ignored
  | fault (cause : Fault)
  deriving DecidableEq

/-- The four characters that separate names and attributes. -/
def isSpace (c : Char) : Bool := c == ' ' || c == '\t' || c == '\n' || c == '\r'

/-! ## Ends of markup

Each function gives what stands before the end and what follows it. -/

/-- The end is the first place where a mark stands. -/
def splitAtMark (mark : List Char) : List Char → Option (List Char × List Char)
  | [] => none
  | c :: rest =>
      if mark.isPrefixOf (c :: rest) then some ([], (c :: rest).drop mark.length)
      else (splitAtMark mark rest).map fun (before, after) => (c :: before, after)

/-- The quote that is open behind a character. -/
def quoteAfter (quote : Option Char) (c : Char) : Option Char :=
  match quote with
  | some q => if c = q then none else some q
  | none => if c = '\'' ∨ c = '"' then some c else none

/-- The end is the first `>` outside quotes; `quote` is the quote that is open. -/
def splitTag (quote : Option Char) : List Char → Option (List Char × List Char)
  | [] => none
  | c :: rest =>
      if quote = none ∧ c = '>' then some ([], rest)
      else
        (splitTag (quoteAfter quote c) rest).map fun (before, after) => (c :: before, after)

/-- The end is the first `>` that closes no `<` before it. -/
def splitNested (depth : Nat) : List Char → Option (List Char × List Char)
  | [] => none
  | c :: rest =>
      if c = '>' ∧ depth = 0 then some ([], rest)
      else
        let depth := if c = '<' then depth + 1 else if c = '>' then depth - 1 else depth
        (splitNested depth rest).map fun (before, after) => (c :: before, after)

/-! ## The declaration -/

/-- The value behind an equals sign, in quotes.  Positions are counted back from `total`. -/
def readQuoted (total : Nat) (text : List Char) : Except Fault (List Char) :=
  match text.dropWhile isSpace with
  | [] => .error (.equalsWithoutValue total)
  | quote :: rest =>
      if quote = '"' ∨ quote = '\'' then
        if rest.contains quote then .ok (rest.takeWhile (· != quote))
        else .error (.unclosedQuote total quote)
      else .error (.unquotedValue (total - byteLength (quote :: rest)))

/-- The first attribute of a text, if there is one. -/
def readAttribute (total : Nat) (text : List Char) :
    Except Fault (Option (List Char × List Char)) :=
  match text.dropWhile isSpace with
  | [] => .ok none
  | c :: rest =>
      let isKey (c : Char) : Bool := c != '=' && !isSpace c
      let key := c :: rest.takeWhile isKey
      match (rest.dropWhile isKey).dropWhile isSpace with
      | [] => .error (.keyWithoutEquals total)
      | '=' :: value => (readQuoted total value).map fun value => some (key, value)
      | other => .error (.keyWithoutEquals (total - byteLength other))

/-- The version in a declaration, given what follows `xml`. -/
def readVersion (text : List Char) : Except Fault (List Char) :=
  match readAttribute (3 + byteLength text) text with
  | .error cause => .error cause
  | .ok none => .error .missingVersion
  | .ok (some (key, value)) =>
      if key = "version".toList then .ok value
      else .error (.versionNotFirst (String.ofList key))

/-! ## Cutting -/

/-- The piece of a tag without its angle brackets. -/
def tagPiece (content : List Char) : Piece :=
  match content.getLast? with
  | some '/' => .empty content.dropLast
  | _ => .opening content

/-- The name in a closing tag; spaces behind it do not belong to it. -/
def closingName (content : List Char) : List Char :=
  let name := (content.reverse.dropWhile isSpace).reverse
  if name = [] then content else name

/-- The piece of an instruction without its marks. -/
def instructionPiece (content : List Char) : Piece :=
  match content with
  | 'x' :: 'm' :: 'l' :: rest =>
      if rest.head?.all isSpace then
        match readVersion rest with
        | .ok version => .declaration version
        | .error cause => .fault cause
      else .ignored
  | _ => .ignored

/-- Whether a text begins with a word, whatever the case of its letters. -/
def beginsWith (word text : List Char) : Bool :=
  (text.take word.length).map Char.toUpper == word

/-- The piece of a document type without its marks. -/
def doctypePiece (content : List Char) : Piece :=
  if !beginsWith "DOCTYPE".toList content then .fault .unclosedDoctype
  else if (content.drop 7).all isSpace then .fault .namelessDoctype
  else .ignored

/-- Make a piece of what stands before the end, or report that there is no end. -/
def close (make : List Char → Piece) (cause : Fault) :
    Option (List Char × List Char) → Piece × List Char
  | some (before, after) => (make before, after)
  | none => (.fault cause, [])

/-- The piece behind `<!` and what follows it. -/
def bangPiece : List Char → Piece × List Char
  | '-' :: '-' :: rest => close .comment .unclosedComment (splitAtMark "-->".toList rest)
  | '-' :: _ => (.fault .unclosedComment, [])
  | '[' :: 'C' :: 'D' :: 'A' :: 'T' :: 'A' :: '[' :: rest =>
      close .cdata .unclosedCData (splitAtMark "]]>".toList rest)
  | '[' :: _ => (.fault .unclosedCData, [])
  | c :: rest =>
      if c = 'D' ∨ c = 'd' then
        close doctypePiece .unclosedDoctype (splitNested 0 (c :: rest))
      else (.fault .unknownMarkup, [])
  | [] => (.fault .unknownMarkup, [])

/-- The piece behind `<` and what follows it. -/
def markupPiece : List Char → Piece × List Char
  | [] => (.fault .unclosedTag, [])
  | '!' :: rest => bangPiece rest
  | '/' :: rest =>
      close (fun content => .closing (closingName content)) .unclosedTag (splitTag none rest)
  | '?' :: '>' :: _ => (.fault .unclosedInstruction, [])
  | '?' :: rest => close instructionPiece .unclosedInstruction (splitAtMark "?>".toList rest)
  | content => close tagPiece .unclosedTag (splitTag none content)

/-- The reference behind `&` as character data, and what follows it. -/
def referencePiece (text : List Char) : Piece × List Char :=
  let isName (c : Char) : Bool := c != ';' && c != '&' && c != '<'
  match text.dropWhile isName with
  | ';' :: after => (.text ('&' :: text.takeWhile isName ++ [';']), after)
  | _ => (.fault .unclosedReference, [])

/-- The first piece of a text that is not empty, and what follows it. -/
def firstPiece (first : Char) (rest : List Char) : Piece × List Char :=
  if first = '<' then markupPiece rest
  else if first = '&' then referencePiece rest
  else
    let isText (c : Char) : Bool := c != '<' && c != '&'
    (.text (first :: rest.takeWhile isText), rest.dropWhile isText)

/-! ## Progress -/

/-- A search for an end, which may remember something of what it has passed, cuts the text at the
end if every step either stands at the end or passes one character. -/
theorem eq_append_of_search {σ : Type} (search : σ → List Char → Option (List Char × List Char))
    {ending : List Char} (empty : ∀ state, search state [] = none)
    (step : ∀ state c rest before after, search state (c :: rest) = some (before, after) →
      before = [] ∧ c :: rest = ending ++ after ∨
        ∃ next, (search next rest).map (fun pair => (c :: pair.1, pair.2)) = some (before, after))
    (state : σ) {text before after : List Char} (found : search state text = some (before, after)) :
    text = before ++ (ending ++ after) := by
  induction text generalizing state before with
  | nil =>
      rw [empty] at found
      cases found
  | cons c rest induction =>
      rcases step _ _ _ _ _ found with ⟨rfl, here⟩ | ⟨next, behind⟩
      · exact here
      · obtain ⟨⟨inner, tail⟩, passed, equal⟩ := Option.map_eq_some_iff.1 behind
        cases equal
        rw [List.cons_append, ← induction next passed]

theorem splitAtMark_eq {mark text before after : List Char}
    (split : splitAtMark mark text = some (before, after)) : text = before ++ (mark ++ after) := by
  refine eq_append_of_search (fun _ : Unit => splitAtMark mark) (fun _ => rfl) ?_ () split
  intro _ c rest before after found
  rw [splitAtMark] at found
  split at found
  · rename_i begins
    cases found
    exact .inl ⟨rfl, (List.prefix_iff_eq_append.1 (List.isPrefixOf_iff_prefix.1 begins)).symm⟩
  · exact .inr ⟨(), found⟩

theorem splitTag_eq {quote : Option Char} {text before after : List Char}
    (split : splitTag quote text = some (before, after)) : text = before ++ (['>'] ++ after) := by
  refine eq_append_of_search splitTag (fun _ => rfl) ?_ quote split
  intro quote c rest before after found
  rw [splitTag] at found
  split at found
  · rename_i ends
    cases found
    exact .inl ⟨rfl, congrArg (· :: rest) ends.2⟩
  · exact .inr ⟨_, found⟩

theorem splitNested_eq {depth : Nat} {text before after : List Char}
    (split : splitNested depth text = some (before, after)) :
    text = before ++ (['>'] ++ after) := by
  refine eq_append_of_search splitNested (fun _ => rfl) ?_ depth split
  intro depth c rest before after found
  rw [splitNested] at found
  split at found
  · rename_i ends
    cases found
    exact .inl ⟨rfl, congrArg (· :: rest) ends.1⟩
  · exact .inr ⟨_, found⟩

theorem length_close {make : List Char → Piece} {cause : Fault}
    {split : Option (List Char × List Char)} {text ending : List Char}
    (cut : ∀ before after, split = some (before, after) → text = before ++ (ending ++ after)) :
    (close make cause split).2.length ≤ text.length := by
  match split, cut with
  | none, _ => exact Nat.zero_le _
  | some (before, after), cut =>
      rw [cut before after rfl]
      simp only [close, List.length_append]
      omega

theorem length_bangPiece (text : List Char) : (bangPiece text).2.length ≤ text.length := by
  unfold bangPiece
  split
  · exact Nat.le_succ_of_le (Nat.le_succ_of_le (length_close fun _ _ => splitAtMark_eq))
  · exact Nat.zero_le _
  · refine Nat.le_trans (length_close fun _ _ => splitAtMark_eq) ?_
    simp only [List.length_cons]
    omega
  · exact Nat.zero_le _
  · split
    · exact length_close fun _ _ => splitNested_eq
    · exact Nat.zero_le _
  · exact Nat.zero_le _

theorem length_markupPiece (text : List Char) : (markupPiece text).2.length ≤ text.length := by
  unfold markupPiece
  split
  · exact Nat.zero_le _
  · exact Nat.le_succ_of_le (length_bangPiece _)
  · exact Nat.le_succ_of_le (length_close fun _ _ => splitTag_eq)
  · exact Nat.zero_le _
  · exact Nat.le_succ_of_le (length_close fun _ _ => splitAtMark_eq)
  · exact length_close fun _ _ => splitTag_eq

theorem length_referencePiece (text : List Char) :
    (referencePiece text).2.length ≤ text.length := by
  unfold referencePiece
  have shorter := (List.dropWhile_suffix (l := text)
    fun c => c != ';' && c != '&' && c != '<').length_le
  dsimp only
  split
  · rename_i after equal
    rw [equal] at shorter
    exact Nat.le_of_succ_le shorter
  · exact Nat.zero_le _

/-- A piece takes up its first character at least. -/
theorem length_firstPiece (first : Char) (rest : List Char) :
    (firstPiece first rest).2.length ≤ rest.length := by
  unfold firstPiece
  split
  · exact length_markupPiece rest
  · split
    · exact length_referencePiece rest
    · exact (List.dropWhile_suffix _).length_le

/-- All pieces of a text, up to the first fault. -/
def scan : List Char → List Piece
  | [] => []
  | first :: rest => (firstPiece first rest).1 :: scan (firstPiece first rest).2
termination_by text => text.length
decreasing_by exact Nat.lt_succ_of_le (length_firstPiece first rest)

end TriggerGraph.Markup
