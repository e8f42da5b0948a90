import Mathlib.Data.List.DropRight
import TriggerGraph.Proofs.Edits

/-!
# Continuing a level

A level is continued by its text: what is added stands right behind what was there.  The objects of
the two texts follow each other unless the first text ends within an object and the second one
begins with one.  Then these two objects are read as one.
-/

namespace TriggerGraph

/-! ## Where two texts meet -/

namespace Level

/-- Two texts meet at a semicolon or at an end, so that no object reaches over the seam. -/
def MeetsClosed (first second : List Char) : Prop :=
  (first = [] ∨ first.getLast? = some ';') ∨ second = [] ∨ second.head? = some ';'

theorem segments_append_of_meetsClosed {first second : List Char}
    (meets : MeetsClosed first second) :
    segments (first ++ second) = segments first ++ segments second := by
  rcases meets with closed | rfl | closed
  · exact segments_append_of_closed closed second
  · rw [segments_nil, List.append_nil, List.append_nil]
  · obtain ⟨rest, rfl⟩ := List.head?_eq_some_iff.1 closed
    rw [segments_append, ← List.nil_append (';' :: rest), segments_append, segments_nil,
      List.nil_append]

/-- An open text is a closed one followed by the beginning of an object. -/
theorem exists_open_end {first : List Char}
    (isOpen : ¬(first = [] ∨ first.getLast? = some ';')) :
    ∃ closed tail, first = closed ++ tail ∧ (closed = [] ∨ closed.getLast? = some ';') ∧
      ';' ∉ tail ∧ tail ≠ [] := by
  let isPlain (c : Char) : Bool := c != ';'
  refine ⟨first.rdropWhile isPlain, first.rtakeWhile isPlain,
    List.rdropWhile_append_rtakeWhile.symm, ?_, ?_, ?_⟩
  · by_cases empty : first.rdropWhile isPlain = []
    · exact .inl empty
    · have last := List.rdropWhile_last_not isPlain first empty
      refine .inr ((List.getLast?_eq_some_getLast empty).trans ?_)
      simpa [isPlain] using last
  · intro member
    have plain := List.mem_rtakeWhile_imp member
    simp [isPlain] at plain
  · intro empty
    obtain ⟨nonempty, unclosed⟩ := not_or.1 isOpen
    have last := List.rtakeWhile_eq_nil_iff.1 empty nonempty
    refine unclosed ((List.getLast?_eq_some_getLast nonempty).trans ?_)
    simpa [isPlain] using last

/-- A text that begins with an object goes on with a closed one. -/
theorem exists_open_start {second : List Char}
    (isOpen : ¬(second = [] ∨ second.head? = some ';')) :
    ∃ head rest, second = head ++ rest ∧ (rest = [] ∨ rest.head? = some ';') ∧
      ';' ∉ head ∧ head ≠ [] := by
  let isPlain (c : Char) : Bool := c != ';'
  refine ⟨second.takeWhile isPlain, second.dropWhile isPlain,
    List.takeWhile_append_dropWhile.symm, ?_, ?_, ?_⟩
  · cases found : second.dropWhile isPlain with
    | nil => exact .inl rfl
    | cons c rest =>
        have stopped := List.head?_dropWhile_not isPlain second
        rw [found] at stopped
        exact .inr (by simpa [isPlain] using stopped)
  · intro member
    have plain := List.mem_takeWhile_imp member
    simp [isPlain] at plain
  · intro empty
    cases second with
    | nil => exact isOpen (.inl rfl)
    | cons c rest => simp_all [isPlain]

/-- What is read of two texts that follow each other: the objects of both exactly if they meet
closed, and otherwise the last object of the first and the first of the second as one. -/
structure Continues (table : Table) (old more new : String) : Prop where
  /-- When the objects of both texts are read. -/
  whole : decode table new = decode table old ++ decode table more ↔
    MeetsClosed old.toList more.toList
  /-- What is read otherwise. -/
  fused : ¬MeetsClosed old.toList more.toList →
    ∃ front tail head back, segments old.toList = front ++ [tail] ∧
      segments more.toList = head :: back ∧
      segments new.toList = front ++ (tail ++ head) :: back

theorem segments_append_of_not_meetsClosed {first second : List Char}
    (apart : ¬MeetsClosed first second) :
    ∃ front tail head back, segments first = front ++ [tail] ∧ segments second = head :: back ∧
      segments (first ++ second) = front ++ (tail ++ head) :: back := by
  obtain ⟨openEnd, openStart⟩ := not_or.1 apart
  obtain ⟨closed, tail, rfl, ahead, tailFree, tailNonempty⟩ := exists_open_end openEnd
  obtain ⟨head, rest, rfl, behind, headFree, headNonempty⟩ := exists_open_start openStart
  have fusedFree : ';' ∉ tail ++ head := by simp [tailFree, headFree]
  refine ⟨segments closed, tail, head, segments rest, ?_, ?_, ?_⟩
  · rw [segments_append_of_meetsClosed (.inl ahead), segments_of_not_mem tailFree tailNonempty]
  · rw [segments_append_of_meetsClosed (.inr behind), segments_of_not_mem headFree headNonempty,
      List.singleton_append]
  · rw [List.append_assoc, ← List.append_assoc tail, segments_append_of_meetsClosed (.inl ahead),
      segments_append_of_meetsClosed (.inr behind),
      segments_of_not_mem fusedFree (List.append_ne_nil_of_left_ne_nil tailNonempty _),
      List.singleton_append]

theorem continues_append (table : Table) (old more : String) :
    Continues table old more (old ++ more) := by
  have parts : decode table (old ++ more) =
      (segments (old.toList ++ more.toList)).map (decodeSegment table) := by
    rw [decode, String.toList_append]
  refine ⟨⟨fun both => ?_, fun meets => ?_⟩, fun apart => ?_⟩
  · -- Where an object reaches over the seam there is one object too few.
    by_contra apart
    obtain ⟨front, tail, head, back, first, second, joined⟩ :=
      segments_append_of_not_meetsClosed apart
    rw [parts, joined] at both
    have lengths := congrArg List.length both
    simp only [decode, first, second, List.length_append, List.length_map, List.length_cons,
      List.length_nil] at lengths
    omega
  · rw [parts, segments_append_of_meetsClosed meets, List.map_append]
    rfl
  · rw [String.toList_append]
    exact segments_append_of_not_meetsClosed apart

/-- What is written is empty or closed. -/
theorem closed_of_encode {table : Table} {objects : List Object} {text : String}
    (written : encode table objects = .ok text) :
    text.toList = [] ∨ text.toList.getLast? = some ';' := by
  rw [encode] at written
  cases result : encodeObjects table objects with
  | error failure =>
      rw [result] at written
      cases written
  | ok encoded =>
      rw [result] at written
      cases written
      obtain ⟨texts, rfl, -⟩ := fields_of_encodeObjects result
      rw [String.toList_ofList]
      rcases List.eq_nil_or_concat texts with rfl | ⟨others, last, rfl⟩
      · exact .inl rfl
      · exact .inr (by simp)

end Level

/-! ## The three ways to continue -/

theorem IsCareful.mono {α : Type} {directory : SaveDirectory} {wanted : Option String}
    {keeps : SaveFile → Prop} {becomes allowed : SaveFile → String → Prop} {disk : Disk}
    {action : ExceptT Failure (StateM Disk) α}
    (careful : IsCareful directory wanted keeps becomes disk action)
    (weaken : ∀ opened level, becomes opened level → allowed opened level) :
    IsCareful directory wanted keeps allowed disk action where
  failed := careful.failed
  done := by
    intro answer after run
    obtain ⟨opened, found, kept | ⟨level, change, records⟩⟩ := careful.done answer after run
    · exact ⟨opened, found, .inl kept⟩
    · exact ⟨opened, found, .inr ⟨level, weaken opened level change, records⟩⟩

section Paths

variable (table : Table) (disk : Disk)

theorem Command.isCareful_append (request : Request) (level : Option String) (file : String) :
    IsCareful request.directory (wantedLevel request level) (fun _ => False)
      (fun opened new => ∃ text, disk.outcome (readInput request file) = (.ok text, disk) ∧
        ((trimmed text).toList = [] ∨ (trimmed text).toList.getLast? = some ';') ∧
        Level.Continues table opened.data.level (trimmed text) new)
      disk (perform request (.append level file)) := by
  refine IsCareful.mono (isCareful_writeLevel request level file true disk) ?_
  rintro opened new ⟨text, input, closed, rfl⟩
  exact ⟨text, input, closed, Level.continues_append table _ _⟩

/-- Without replacement all objects of a compilation are written. -/
theorem Export.encode_flush_of_prepare {compiler : Compiler} {options : ExportOptions}
    (keeps : options.replace = false) {prepared : List Object × String}
    (ready : prepare compiler options = .ok prepared) :
    Level.encode .builtin compiler.flush = .ok prepared.2 := by
  obtain ⟨chosen, chose, rest⟩ := SaveFile.bind_eq_ok.1 ready
  obtain ⟨encoded, written, same⟩ := SaveFile.bind_eq_ok.1 rest
  rw [objects, if_neg (by rw [keeps]; decide)] at chose
  cases chose
  cases same
  exact SaveFile.wrap_eq_ok.1 written

theorem Export.isCareful_continue (compiler : Compiler) (directory : SaveDirectory)
    {options : ExportOptions} (keeps : options.replace = false) :
    IsCareful directory options.level (fun _ => False)
      (fun opened new => ∃ text, Level.encode .builtin compiler.flush = .ok text ∧
        (text.toList = [] ∨ text.toList.getLast? = some ';') ∧
        Level.Continues table opened.data.level text new)
      disk (run compiler directory options) := by
  refine (isCareful_run compiler directory options disk).mono ?_
  rintro opened new ⟨prepared, ready, rfl⟩
  have written := encode_flush_of_prepare keeps ready
  rw [remaining, if_neg (by rw [keeps]; decide)]
  exact ⟨prepared.2, written, Level.closed_of_encode written, Level.continues_append table _ _⟩

end Paths

namespace SaveFile

open Level

/-- However a level is continued, the objects of both texts are read again exactly if the texts
meet closed; the last object of an open level is read as one with the first that is added. -/
theorem continued_level_has_both_halves_iff (table : Table) :
    (∀ (file : SaveFile) (more : String) (element : Markup.Element),
      file.document.element? file.entry = some element →
      ∃ changed, file.add more = .ok changed ∧
        levelOf changed.data.payload = .ok changed.data.level ∧
        Continues table file.data.level more changed.data.level) ∧
    (∀ (disk : Disk) (request : Command.Request) (level : Option String) (file : String),
      IsCareful request.directory (Command.wantedLevel request level) (fun _ => False)
        (fun opened new => ∃ text,
          disk.outcome (Command.readInput request file) = (.ok text, disk) ∧
          ((Command.trimmed text).toList = [] ∨
            (Command.trimmed text).toList.getLast? = some ';') ∧
          Continues table opened.data.level (Command.trimmed text) new)
        disk (Command.perform request (.append level file))) ∧
    ∀ (disk : Disk) (compiler : Compiler) (directory : SaveDirectory) (options : ExportOptions),
      options.replace = false →
      IsCareful directory options.level (fun _ => False)
        (fun opened new => ∃ text, encode .builtin compiler.flush = .ok text ∧
          (text.toList = [] ∨ text.toList.getLast? = some ';') ∧
          Continues table opened.data.level text new)
        disk (Export.run compiler directory options) := by
  refine ⟨?_, ?_, ?_⟩
  · intro file more element found
    exact ⟨_, set_eq found _, levelOf_toPayload _, continues_append table _ more⟩
  · intro disk request level file
    exact Command.isCareful_append table disk request level file
  · intro disk compiler directory options keeps
    exact Export.isCareful_continue table disk compiler directory keeps

/-- The text of a document whose level holds one object that is not closed. -/
def openEndedText : String :=
  "<d><d><k>k2</k><s>A</s><k>k4</k><s>H4sIAAAAAAAA_zPUMdQx0jE0BQBQhdQUCAAAAA==</s></d></d>"

/-- What it opens as. -/
def openEnded : SaveFile := stored "H4sIAAAAAAAA_zPUMdQx0jE0BQBQhdQUCAAAAA==" "1,1,2,15"

theorem ofText_openEnded : ofText ⟨"/saves"⟩ openEndedText none = .ok openEnded :=
  ofText_stored (by decide +kernel) (by decide +kernel) (by decide +kernel) (by decide +kernel)

/-- The open object and an object behind a semicolon are both read. -/
theorem open_level_continued_behind_semicolon :
    ofText ⟨"/saves"⟩ openEndedText none = .ok openEnded ∧
    ∃ changed, openEnded.add ";1,2;" = .ok changed ∧
      decode .builtin changed.data.level =
        decode .builtin "1,1,2,15" ++ decode .builtin ";1,2;" := by
  obtain ⟨adds, -, -⟩ := continued_level_has_both_halves_iff .builtin
  obtain ⟨-, -, -, element, here, -⟩ := ofText_eq_ok.1 ofText_openEnded
  obtain ⟨changed, added, -, continues⟩ := adds openEnded ";1,2;" element here
  exact ⟨ofText_openEnded, changed, added, continues.whole.2 (.inr (.inr rfl))⟩

/-- An object that is added to an open level ends in the last object of that level. -/
theorem open_level_swallows_next_object :
    ofText ⟨"/saves"⟩ openEndedText none = .ok openEnded ∧
    ∃ changed, openEnded.add "1,2,;" = .ok changed ∧
      (decode .builtin changed.data.level).map (·.fields) =
        [[("OBJ_ID", .ofInt 1), ("X", .text "")]] ∧
      (decode .builtin openEnded.data.level ++ decode .builtin "1,2,;").map (·.fields) =
        [[("OBJ_ID", .ofInt 1), ("X", .ofInt 15)], [("OBJ_ID", .ofInt 2)]] := by
  obtain ⟨-, -, -, element, here, -⟩ := ofText_eq_ok.1 ofText_openEnded
  refine ⟨ofText_openEnded, _, set_eq here _, ?_, ?_⟩
  · decide +kernel
  · decide +kernel

end SaveFile
end TriggerGraph
