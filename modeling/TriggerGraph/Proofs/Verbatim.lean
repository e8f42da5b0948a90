import Mathlib.Data.List.Forall2
import TriggerGraph.Markup.Document

/-!
# Documents that nobody changes

A text is cut into stretches, and each stretch becomes one piece.  Putting the pieces together keeps
what has been read so far as the text of the open elements and of the nodes in them, so an accepted
document is written as its declaration and then the text of piece after piece.  A piece is written
as the stretch it was read from, except that document types and instructions are lost, a closing tag
loses spaces, and a declaration keeps its version only.
-/

namespace TriggerGraph.Markup

/-! ## Stretches of text -/

/-- Character data between its marks. -/
def cdataText (raw : List Char) : List Char :=
  '<' :: '!' :: '[' :: 'C' :: 'D' :: 'A' :: 'T' :: 'A' :: '[' :: (raw ++ [']', ']', '>'])

/-- A comment between its marks. -/
def commentText (raw : List Char) : List Char :=
  '<' :: '!' :: '-' :: '-' :: (raw ++ ['-', '-', '>'])

/-- The pieces that a stretch of text can be read as. -/
inductive ReadAs : List Char → Piece → Prop
  | text (raw : List Char) : ReadAs raw (.text raw)
  | opening (start : List Char) : ReadAs ('<' :: (start ++ ['>'])) (.opening start)
  | empty (start : List Char) : ReadAs ('<' :: (start ++ ['/', '>'])) (.empty start)
  | closing (content : List Char) :
      ReadAs ('<' :: '/' :: (content ++ ['>'])) (.closing (closingName content))
  | cdata (raw : List Char) : ReadAs (cdataText raw) (.cdata raw)
  | comment (raw : List Char) : ReadAs (commentText raw) (.comment raw)
  | instruction (content : List Char) :
      ReadAs ('<' :: '?' :: (content ++ ['?', '>'])) (instructionPiece content)
  | doctype (content : List Char) :
      ReadAs ('<' :: '!' :: (content ++ ['>'])) (doctypePiece content)
  | fault (source : List Char) (cause : Fault) : ReadAs source (.fault cause)

/-- A piece and the text behind it were cut from a text. -/
def IsCut (text : List Char) (result : Piece × List Char) : Prop :=
  ∃ source, text = source ++ result.2 ∧ ReadAs source result.1

theorem isCut_fault (text : List Char) (cause : Fault) : IsCut text (.fault cause, []) :=
  ⟨text, (List.append_nil text).symm, .fault text cause⟩

/-- What stands between an opening and its end. -/
theorem isCut_close (opening ending : List Char) {make : List Char → Piece} {cause : Fault}
    {split : Option (List Char × List Char)} {text : List Char}
    (cut : ∀ before after, split = some (before, after) → text = before ++ (ending ++ after))
    (made : ∀ content, ReadAs (opening ++ (content ++ ending)) (make content)) :
    IsCut (opening ++ text) (close make cause split) := by
  match split, cut with
  | none, _ => exact isCut_fault _ cause
  | some (before, after), cut =>
      refine ⟨opening ++ (before ++ ending), ?_, made before⟩
      rw [cut before after rfl]
      simp [close]

theorem readAs_tagPiece (content : List Char) :
    ReadAs ('<' :: (content ++ ['>'])) (tagPiece content) := by
  unfold tagPiece
  split
  · rename_i last
    have whole : content.dropLast ++ ['/'] = content := List.dropLast_append_getLast? '/' last
    have read := ReadAs.empty content.dropLast
    rwa [show ['/', '>'] = ['/'] ++ ['>'] from rfl, ← List.append_assoc, whole] at read
  · exact .opening content

theorem isCut_bangPiece (text : List Char) : IsCut ('<' :: '!' :: text) (bangPiece text) := by
  unfold bangPiece
  split
  · exact isCut_close "<!--".toList "-->".toList (fun _ _ => splitAtMark_eq) .comment
  · exact isCut_fault _ _
  · exact isCut_close "<![CDATA[".toList "]]>".toList (fun _ _ => splitAtMark_eq) .cdata
  · exact isCut_fault _ _
  · split
    · exact isCut_close "<!".toList ['>'] (fun _ _ => splitNested_eq) .doctype
    · exact isCut_fault _ _
  · exact isCut_fault _ _

theorem isCut_markupPiece (text : List Char) : IsCut ('<' :: text) (markupPiece text) := by
  unfold markupPiece
  split
  · exact isCut_fault _ _
  · exact isCut_bangPiece _
  · exact isCut_close "</".toList ['>'] (fun _ _ => splitTag_eq) .closing
  · exact isCut_fault _ _
  · exact isCut_close "<?".toList "?>".toList (fun _ _ => splitAtMark_eq) .instruction
  · exact isCut_close "<".toList ['>'] (fun _ _ => splitTag_eq) readAs_tagPiece

theorem isCut_referencePiece (text : List Char) : IsCut ('&' :: text) (referencePiece text) := by
  unfold referencePiece
  dsimp only
  have whole := List.takeWhile_append_dropWhile
    (p := fun c : Char => c != ';' && c != '&' && c != '<') (l := text)
  split
  · rename_i after rest
    refine ⟨_, ?_, .text _⟩
    rw [rest] at whole
    simp [whole]
  · exact isCut_fault _ _

/-- The first piece of a text was cut from its beginning. -/
theorem isCut_firstPiece (first : Char) (rest : List Char) :
    IsCut (first :: rest) (firstPiece first rest) := by
  unfold firstPiece
  split
  · rename_i same
    exact same ▸ isCut_markupPiece rest
  · split
    · rename_i same
      exact same ▸ isCut_referencePiece rest
    · exact ⟨_, by simp, .text _⟩

/-- The stretches of a text, one for each piece. -/
def sources : List Char → List (List Char)
  | [] => []
  | first :: rest =>
      -- the first piece used up what does not follow it
      (first :: rest).take (rest.length + 1 - (firstPiece first rest).2.length) ::
        sources (firstPiece first rest).2
termination_by text => text.length
decreasing_by exact Nat.lt_succ_of_le (length_firstPiece first rest)

theorem sources_spec (text : List Char) :
    List.Forall₂ ReadAs (sources text) (scan text) ∧ (sources text).flatten = text := by
  induction text using scan.induct with
  | case1 =>
      rw [sources, scan]
      exact ⟨.nil, rfl⟩
  | case2 first rest induction =>
      obtain ⟨source, whole, read⟩ := isCut_firstPiece first rest
      have length : rest.length + 1 - (firstPiece first rest).2.length = source.length := by
        have := congrArg List.length whole
        rw [List.length_cons, List.length_append] at this
        omega
      have taken : (first :: rest).take (rest.length + 1 - (firstPiece first rest).2.length) =
          source := by
        rw [length, whole, List.take_left]
      rw [sources, scan, taken, List.flatten_cons, induction.2]
      exact ⟨.cons read induction.1, whole.symm⟩

/-! ## Writing nodes -/

theorem Node.write_element (tag : Tag) (children : List Node) (after : List Char) :
    (Node.element tag children).write after =
      if tag.empty && children.isEmpty then '<' :: (tag.start.toList ++ '/' :: '>' :: after)
      else
        '<' :: (tag.start.toList ++
          '>' :: writeAll children ('<' :: '/' :: (tag.name.toList ++ '>' :: after))) := rfl

@[simp]
theorem Node.write_text (raw : String) (after : List Char) :
    (Node.text raw).write after = raw.toList ++ after := rfl

@[simp]
theorem Node.write_cdata (raw : String) (after : List Char) :
    (Node.cdata raw).write after = cdataText raw.toList ++ after := by
  have written : (Node.cdata raw).write after =
    "<![CDATA[".toList ++ (raw.toList ++ ("]]>".toList ++ after)) := rfl
  simp [written, cdataText]

@[simp]
theorem Node.write_comment (raw : String) (after : List Char) :
    (Node.comment raw).write after = commentText raw.toList ++ after := by
  have written : (Node.comment raw).write after =
    "<!--".toList ++ (raw.toList ++ ("-->".toList ++ after)) := rfl
  simp [written, commentText]

@[simp]
theorem writeAll_nil (after : List Char) : writeAll [] after = after := rfl

theorem writeAll_cons (node : Node) (rest : List Node) (after : List Char) :
    writeAll (node :: rest) after = node.write (writeAll rest after) := rfl

mutual

theorem Node.write_eq_append : ∀ (node : Node) (after : List Char),
    node.write after = node.write [] ++ after
  | .element tag children, after => by
      have behind := writeAll_eq_append children
      rw [Node.write_element, Node.write_element,
        behind ('<' :: '/' :: (tag.name.toList ++ '>' :: after)),
        behind ('<' :: '/' :: (tag.name.toList ++ ['>']))]
      split <;> simp
  | .text raw, after => by simp
  | .cdata raw, after => by simp
  | .comment raw, after => by simp

theorem writeAll_eq_append : ∀ (nodes : List Node) (after : List Char),
    writeAll nodes after = writeAll nodes [] ++ after
  | [], after => rfl
  | node :: rest, after => by
      have first := Node.write_eq_append node
      rw [writeAll_cons, writeAll_cons, first, first (writeAll rest []),
        writeAll_eq_append rest after, List.append_assoc]

end

theorem writeAll_append (left right : List Node) :
    writeAll (left ++ right) [] = writeAll left [] ++ writeAll right [] := by
  induction left with
  | nil => rfl
  | cons node rest induction =>
      rw [List.cons_append, writeAll_cons, writeAll_cons, node.write_eq_append,
        node.write_eq_append (writeAll rest []), induction, List.append_assoc]

/-! ## Putting pieces together -/

/-- What a piece adds to the written document; a declaration is written apart. -/
def Piece.written : Piece → List Char
  | .text raw => raw
  | .opening start => '<' :: (start ++ ['>'])
  | .empty start => '<' :: (start ++ ['/', '>'])
  | .closing name => '<' :: '/' :: (name ++ ['>'])
  | .cdata raw => cdataText raw
  | .comment raw => commentText raw
  | .declaration _ | .ignored | .fault _ => []

namespace Builder

/-- The text of open elements, each behind the nodes before it. -/
def openedText : List (Tag × List Node) → List Char
  | [] => []
  | (tag, before) :: outer =>
      openedText outer ++ (writeAll before.reverse [] ++ '<' :: (tag.start.toList ++ ['>']))

/-- The text that has been taken up so far. -/
def written (builder : Builder) : List Char :=
  openedText builder.opened ++ writeAll builder.nodes.reverse []

/-- No open element was written with an empty tag. -/
def IsOpen (builder : Builder) : Prop := ∀ entry ∈ builder.opened, entry.1.empty = false

theorem writeAll_push (node : Node) (nodes : List Node) :
    writeAll (push node nodes).reverse [] = writeAll nodes.reverse [] ++ node.write [] := by
  have single (node : Node) : writeAll [node] [] = node.write [] := rfl
  unfold push
  split
  · rw [List.reverse_cons, List.reverse_cons, writeAll_append, writeAll_append, single, single]
    simp
  · rw [List.reverse_cons, writeAll_append, single]

theorem written_add (builder : Builder) (node : Node) :
    (builder.add node).written = builder.written ++ node.write [] := by
  rw [written, written, add, writeAll_push, List.append_assoc]

theorem written_close {builder next : Builder} {name : String} (isOpen : builder.IsOpen)
    (closed : builder.close name = .ok next) :
    next.written = builder.written ++ '<' :: '/' :: (name.toList ++ ['>']) ∧ next.IsOpen := by
  unfold close at closed
  split at closed
  · cases closed
  · rename_i tag before outer opened
    rw [IsOpen, opened, List.forall_mem_cons] at isOpen
    split at closed
    · rename_i same
      cases closed
      refine ⟨?_, isOpen.2⟩
      rw [written, written, opened, writeAll_push, Node.write_element, isOpen.1, Bool.false_and,
        writeAll_eq_append _ (_ :: _), openedText, same]
      simp
    · cases closed

/-- Every piece adds its own text, and nothing else changes. -/
theorem written_step {builder next : Builder} {piece : Piece} (isOpen : builder.IsOpen)
    (stepped : builder.step piece = .ok next) :
    next.written = builder.written ++ piece.written ∧ next.IsOpen := by
  cases piece with
  | text raw =>
      cases stepped
      exact ⟨by simp [written_add, Piece.written], isOpen⟩
  | opening start =>
      cases stepped
      refine ⟨?_, List.forall_mem_cons.2 ⟨rfl, isOpen⟩⟩
      rw [written, written, openedText, tagOf, Piece.written]
      simp
  | empty start =>
      cases stepped
      refine ⟨?_, isOpen⟩
      rw [written_add, Node.write_element, tagOf, Piece.written]
      simp
  | closing name =>
      have closed := written_close isOpen stepped
      rwa [String.toList_ofList] at closed
  | cdata raw =>
      cases stepped
      exact ⟨by simp [written_add, Piece.written], isOpen⟩
  | comment raw =>
      cases stepped
      exact ⟨by simp [written_add, Piece.written], isOpen⟩
  | declaration version =>
      cases stepped
      exact ⟨(List.append_nil _).symm, isOpen⟩
  | ignored =>
      cases stepped
      exact ⟨(List.append_nil _).symm, isOpen⟩
  | fault cause => cases stepped

theorem version_step {builder next : Builder} {piece : Piece}
    (undeclared : ∀ version, piece ≠ .declaration version)
    (stepped : builder.step piece = .ok next) : next.version = builder.version := by
  cases piece with
  | declaration version => exact absurd rfl (undeclared version)
  | closing name =>
      rw [step, close] at stepped
      split at stepped
      · cases stepped
      · split at stepped
        · cases stepped
          rfl
        · cases stepped
  | fault cause => cases stepped
  | _ =>
      cases stepped
      rfl

theorem written_steps {builder next : Builder} {pieces : List Piece} (isOpen : builder.IsOpen)
    (stepped : builder.steps pieces = .ok next) :
    next.written = builder.written ++ pieces.flatMap Piece.written := by
  induction pieces generalizing builder with
  | nil =>
      cases stepped
      exact (List.append_nil _).symm
  | cons piece rest induction =>
      rw [steps] at stepped
      split at stepped
      · cases stepped
      · rename_i middle first
        obtain ⟨added, stillOpen⟩ := written_step isOpen first
        rw [induction stillOpen stepped, added, List.flatMap_cons, List.append_assoc]

theorem version_steps {builder next : Builder} {pieces : List Piece}
    (undeclared : ∀ piece ∈ pieces, ∀ version, piece ≠ .declaration version)
    (stepped : builder.steps pieces = .ok next) : next.version = builder.version := by
  induction pieces generalizing builder with
  | nil =>
      cases stepped
      rfl
  | cons piece rest induction =>
      rw [List.forall_mem_cons] at undeclared
      rw [steps] at stepped
      split at stepped
      · cases stepped
      · rename_i middle first
        rw [induction undeclared.2 stepped, version_step undeclared.1 first]

theorem not_fault_of_steps {builder next : Builder} {pieces : List Piece}
    (stepped : builder.steps pieces = .ok next) (cause : Fault) : .fault cause ∉ pieces := by
  induction pieces generalizing builder with
  | nil => exact List.not_mem_nil
  | cons piece rest induction =>
      rw [steps] at stepped
      split at stepped
      · cases stepped
      · rename_i middle first
        rw [List.mem_cons, not_or]
        refine ⟨?_, induction stepped⟩
        rintro rfl
        cases first

end Builder

/-- An accepted document is written as its declaration and then piece after piece. -/
theorem Document.write_of_parse {text : String} {document : Document}
    (accepted : parse text = .ok document) :
    ∃ builder, Builder.start.steps (scan (dropMark text.toList)) = .ok builder ∧
      document.write.toList = declaration builder.version ++
        (scan (dropMark text.toList)).flatMap Piece.written := by
  unfold parse at accepted
  split at accepted
  · cases accepted
  · rename_i builder stepped
    split at accepted
    · cases accepted
    · rename_i closed
      cases accepted
      have isOpen : Builder.start.IsOpen := List.forall_mem_nil _
      have written := Builder.written_steps isOpen stepped
      refine ⟨builder, stepped, ?_⟩
      rw [write, String.toList_ofList, ← List.nil_append (List.flatMap _ _)]
      rw [Builder.written, closed] at written
      exact congrArg (declaration builder.version ++ ·) written

/-! ## What is kept -/

/-- A closing tag. -/
def isClosing (source : List Char) : Bool := ['<', '/'].isPrefixOf source

/-- An instruction or a declaration. -/
def isInstruction (source : List Char) : Bool := ['<', '?'].isPrefixOf source

/-- A document type. -/
def isDoctype (source : List Char) : Bool := beginsWith "<!DOCTYPE".toList source

/-- A declaration of a version and nothing else. -/
def IsPlainDeclaration (source : List Char) : Prop :=
  ∃ version, '"' ∉ version ∧ source = "<?xml version=\"".toList ++ (version ++ "\"?>".toList)

/-- Stretches of which nothing is lost: there is no document type, no space in a closing tag and no
instruction, except that the first stretch may be a plain declaration. -/
structure IsKept (stretches : List (List Char)) : Prop where
  doctypes : ∀ source ∈ stretches, isDoctype source = false
  closings : ∀ source ∈ stretches, isClosing source = true → source.any isSpace = false
  declared : ∀ source ∈ stretches.head?, isInstruction source = true → IsPlainDeclaration source
  instructions : ∀ source ∈ stretches.tail, isInstruction source = false

theorem closingName_of_any {content : List Char} (tight : content.any isSpace = false) :
    closingName content = content := by
  have kept : content.reverse.dropWhile isSpace = content.reverse := by
    cases reversed : content.reverse with
    | nil => rfl
    | cons last rest =>
        have member : last ∈ content := List.mem_reverse.1 (reversed ▸ List.mem_cons_self)
        rw [List.any_eq_false] at tight
        exact List.dropWhile_cons_of_neg (tight last member)
  simp [closingName, kept]

theorem beginsWith_append {word text : List Char} (begins : beginsWith word text = true)
    (more : List Char) : beginsWith word (text ++ more) = true := by
  rw [beginsWith, beq_iff_eq] at begins ⊢
  have long : word.length ≤ text.length := by
    have length := congrArg List.length begins
    rw [List.length_map, List.length_take] at length
    omega
  rw [List.take_append_of_le_length long, begins]

theorem isDoctype_of_doctypePiece {content : List Char}
    (accepted : ∀ cause, doctypePiece content ≠ .fault cause) :
    isDoctype ('<' :: '!' :: (content ++ ['>'])) = true := by
  cases begins : beginsWith "DOCTYPE".toList content with
  | false => exact absurd (by simp only [doctypePiece, begins]; rfl) (accepted .unclosedDoctype)
  | true =>
      have behind := beginsWith_append begins ['>']
      rw [beginsWith, beq_iff_eq] at behind
      rw [isDoctype, beginsWith, beq_iff_eq]
      exact congrArg (['<', '!'] ++ ·) behind

/-- A stretch is written back as it stands unless it is an instruction. -/
theorem ReadAs.cases_written {source : List Char} {piece : Piece} (read : ReadAs source piece)
    (accepted : ∀ cause, piece ≠ .fault cause) (undoctyped : isDoctype source = false)
    (tight : isClosing source = true → source.any isSpace = false) :
    (source = piece.written ∧ ∀ version, piece ≠ .declaration version) ∨
      ∃ content, source = '<' :: '?' :: (content ++ ['?', '>']) ∧
        piece = instructionPiece content := by
  cases read with
  | closing content =>
      have spaceless : content.any isSpace = false := by
        have all := tight (by simp [isClosing])
        simp only [List.any_cons, List.any_append, Bool.or_eq_false_iff] at all
        exact all.2.2.1
      rw [closingName_of_any spaceless]
      exact .inl ⟨rfl, nofun⟩
  | instruction content => exact .inr ⟨content, rfl, rfl⟩
  | doctype content =>
      rw [isDoctype_of_doctypePiece accepted] at undoctyped
      cases undoctyped
  | fault source cause => exact absurd rfl (accepted cause)
  | _ => exact .inl ⟨rfl, nofun⟩

theorem readQuoted_of_not_mem {value : List Char} (unquoted : '"' ∉ value) (total : Nat) :
    readQuoted total ('"' :: (value ++ ['"'])) = .ok value := by
  have taken : (value ++ ['"']).takeWhile (· != '"') = value := by
    rw [List.takeWhile_append_of_pos]
    · simp
    · rintro c member
      simp only [bne_iff_ne]
      rintro rfl
      exact unquoted member
  have started : ('"' :: (value ++ ['"'])).dropWhile isSpace = '"' :: (value ++ ['"']) := rfl
  rw [readQuoted, started]
  simp [taken]

theorem instructionPiece_plain {version : List Char} (unquoted : '"' ∉ version) :
    instructionPiece ("xml version=\"".toList ++ (version ++ ['"'])) = .declaration version := by
  have attributed (total : Nat) :
      readAttribute total (" version=\"".toList ++ (version ++ ['"'])) =
        (readQuoted total ('"' :: (version ++ ['"']))).map fun value =>
          some ("version".toList, value) := rfl
  have read : readVersion (" version=\"".toList ++ (version ++ ['"'])) = .ok version := by
    rw [readVersion, attributed, readQuoted_of_not_mem unquoted]
    rfl
  have spaced : (" version=\"".toList ++ (version ++ ['"'])).head?.all isSpace = true := rfl
  change instructionPiece ('x' :: 'm' :: 'l' :: (" version=\"".toList ++ (version ++ ['"']))) = _
  rw [instructionPiece, if_pos spaced, read]

theorem declaration_of_isPlainDeclaration {content : List Char}
    (plain : IsPlainDeclaration ('<' :: '?' :: (content ++ ['?', '>']))) :
    ∃ version, instructionPiece content = .declaration version ∧
      Document.declaration (some (String.ofList version)) =
        '<' :: '?' :: (content ++ ['?', '>']) := by
  obtain ⟨version, unquoted, spelled⟩ := plain
  have inner : content = "xml version=\"".toList ++ (version ++ ['"']) := by
    refine List.append_cancel_right (?_ : content ++ ['?', '>'] = _ ++ ['?', '>'])
    simpa using spelled
  have written : Document.declaration (some (String.ofList version)) =
    "<?xml version=\"".toList ++ (String.ofList version).toList ++ "\"?>".toList := rfl
  have same : (String.ofList version).toList = version := String.toList_ofList
  refine ⟨version, inner ▸ instructionPiece_plain unquoted, ?_⟩
  rw [spelled, written, same, List.append_assoc]

/-- Without instructions, the pieces add exactly the stretches they were read from. -/
theorem written_of_no_instruction {stretches : List (List Char)} {pieces : List Piece}
    (reads : List.Forall₂ ReadAs stretches pieces)
    (accepted : ∀ piece ∈ pieces, ∀ cause, piece ≠ .fault cause)
    (doctypes : ∀ source ∈ stretches, isDoctype source = false)
    (closings : ∀ source ∈ stretches, isClosing source = true → source.any isSpace = false)
    (instructions : ∀ source ∈ stretches, isInstruction source = false) :
    pieces.flatMap Piece.written = stretches.flatten ∧
      ∀ piece ∈ pieces, ∀ version, piece ≠ .declaration version := by
  induction reads with
  | nil => exact ⟨rfl, List.forall_mem_nil _⟩
  | cons read _ induction =>
      rw [List.forall_mem_cons] at accepted doctypes closings instructions
      obtain ⟨same, undeclared⟩ :=
        induction accepted.2 doctypes.2 closings.2 instructions.2
      obtain ⟨here, first⟩ | ⟨content, rfl, -⟩ :=
        read.cases_written accepted.1 doctypes.1 closings.1
      · rw [List.flatMap_cons, List.flatten_cons, same, ← here]
        exact ⟨rfl, List.forall_mem_cons.2 ⟨first, undeclared⟩⟩
      · cases instructions.1

/-- The declaration and what the pieces add are the stretches they were read from. -/
theorem written_of_isKept {stretches : List (List Char)} {pieces : List Piece} {builder : Builder}
    (reads : List.Forall₂ ReadAs stretches pieces) (kept : IsKept stretches)
    (stepped : Builder.start.steps pieces = .ok builder) :
    Document.declaration builder.version ++ pieces.flatMap Piece.written = stretches.flatten := by
  have accepted (piece : Piece) (member : piece ∈ pieces) (cause : Fault) : piece ≠ .fault cause :=
    fun same => Builder.not_fault_of_steps stepped cause (same ▸ member)
  obtain ⟨doctypes, closings, declared, instructions⟩ := kept
  cases reads with
  | nil =>
      cases stepped
      rfl
  | @cons source piece rest others read reads =>
      rw [List.forall_mem_cons] at accepted doctypes closings
      -- a declaration can only stand first, and no later piece takes its version back
      obtain ⟨same, undeclared⟩ :=
        written_of_no_instruction reads accepted.2 doctypes.2 closings.2 instructions
      rw [List.flatMap_cons, List.flatten_cons, same]
      obtain ⟨here, first⟩ | ⟨content, rfl, rfl⟩ :=
        read.cases_written accepted.1 doctypes.1 closings.1
      · have none : builder.version = none :=
          Builder.version_steps (List.forall_mem_cons.2 ⟨first, undeclared⟩) stepped
        rw [none, ← here]
        rfl
      · obtain ⟨version, declares, spelled⟩ :=
          declaration_of_isPlainDeclaration (declared _ rfl rfl)
        rw [declares] at stepped
        have some : builder.version = some (String.ofList version) :=
          Builder.version_steps undeclared
            (stepped : (⟨some (String.ofList version), [], []⟩ : Builder).steps others = _)
        rw [some, spelled, declares]
        rfl

theorem dropMark_of_head? {text : List Char} (unmarked : text.head? ≠ some '\uFEFF') :
    dropMark text = text := by
  unfold dropMark
  split
  · exact absurd rfl unmarked
  · rfl

/-- An accepted document of which nothing is lost is written as it was read. -/
theorem untouched_document_is_written_back {text : String} {document : Document}
    (unmarked : text.toList.head? ≠ some '\uFEFF') (kept : IsKept (sources text.toList))
    (accepted : Document.parse text = .ok document) : document.write = text := by
  obtain ⟨builder, stepped, written⟩ := Document.write_of_parse accepted
  rw [dropMark_of_head? unmarked] at stepped written
  obtain ⟨reads, whole⟩ := sources_spec text.toList
  rw [written_of_isKept reads kept stepped, whole] at written
  exact String.toList_inj.1 written

/-- A document with every kind of markup that is kept. -/
def keptText : String :=
  "<?xml version=\"1.0\"?>\n<d a='>' b=\"</k >\">1 &lt; 2<t /><t/>" ++
    "<![CDATA[</k ><?x?>]]><!--<!DOCTYPE d>--><></></d>\t"

theorem kept_text_is_written_back :
    IsKept (sources keptText.toList) ∧
      ∃ document, Document.parse keptText = .ok document ∧ document.write = keptText := by
  have cut : sources keptText.toList =
      ["<?xml version=\"1.0\"?>", "\n", "<d a='>' b=\"</k >\">", "1 ", "&lt;", " 2", "<t />",
        "<t/>", "<![CDATA[</k ><?x?>]]>", "<!--<!DOCTYPE d>-->", "<>", "</>", "</d>", "\t"].map
        String.toList := by
    decide +kernel
  have kept : IsKept (sources keptText.toList) := by
    rw [cut]
    refine ⟨by decide +kernel, by decide +kernel, ?_, by decide +kernel⟩
    rintro source ⟨⟩ -
    exact ⟨"1.0".toList, by decide, rfl⟩
  cases accepted : Document.parse keptText with
  | error cause =>
      have isOk : (Document.parse keptText).toOption.isSome = true := by decide +kernel
      rw [accepted] at isOk
      cases isOk
  | ok document =>
      exact ⟨kept, document, rfl,
        untouched_document_is_written_back (by decide +kernel) kept accepted⟩

end TriggerGraph.Markup
