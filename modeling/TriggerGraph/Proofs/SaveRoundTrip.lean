import TriggerGraph.Proofs.Envelopes
import TriggerGraph.Proofs.Files
import TriggerGraph.Proofs.LevelPaths
import TriggerGraph.Proofs.LooseKeys

/-!
# Edits of a level survive being saved

Every edit of the selected level comes down to one value that is set in its dictionary, and of
several edits only the last one is left in the document. So the saved document differs from the one
that was opened in this value alone: it is opened at the same level, with the level string that the
edits make, and with all other levels as they were.
-/

namespace TriggerGraph

open Markup

namespace SaveFile

/-! ## Opening -/

theorem wrap_eq_ok {ε α : Type} {during : List String} {cause : ε → Cause} {result : Except ε α}
    {value : α} : Failure.wrap during cause result = .ok value ↔ result = .ok value := by
  cases result <;> simp [Failure.wrap]

theorem bind_eq_ok {ε α β : Type} {first : Except ε α} {next : α → Except ε β} {value : β} :
    (first >>= next) = .ok value ↔ ∃ middle, first = .ok middle ∧ next middle = .ok value := by
  cases first <;> simp [bind, Except.bind]

/-- When the text of a document opens as a save file. -/
theorem ofText_eq_ok {directory : SaveDirectory} {text : String} {wanted : Option String}
    {file : SaveFile} :
    ofText directory text wanted = .ok file ↔
      directory = file.directory ∧ readDocument text = .ok file.document ∧
      select file.document wanted = .ok file.entry ∧
      ∃ element, file.document.element? file.entry = some element ∧
        element.levelName = file.data.name ∧ payloadOf element = .ok file.data.payload ∧
        levelOf file.data.payload = .ok file.data.level := by
  simp only [ofText, bind_eq_ok, wrap_eq_ok, pure, Except.pure, Except.ok.injEq]
  constructor
  · rintro ⟨document, parsed, entry, selected, element, found, payload, written, level, decoded,
      rfl⟩
    refine ⟨rfl, parsed, selected, element, ?_, rfl, written, decoded⟩
    split at found
    · rename_i here
      rw [here, Except.ok.inj found]
    · cases found
  · obtain ⟨_, document, entry, ⟨name, payload, level⟩⟩ := file
    rintro ⟨rfl, parsed, selected, element, found, rfl, written, decoded⟩
    refine ⟨document, parsed, entry, selected, element, ?_, payload, written, level, decoded, rfl⟩
    rw [found]

theorem mem_levels_of_select {document : Document} {wanted : Option String} {entry : List Nat}
    (selected : select document wanted = .ok entry) : entry ∈ document.levels := by
  unfold select at selected
  split at selected
  · split at selected
    · rename_i found
      cases selected
      exact List.mem_of_find?_eq_some found
    · cases selected
  · split at selected
    · rename_i listed
      cases selected
      rw [listed]
      exact List.mem_cons_self
    · cases selected

/-! ## One payload in a document -/

/-- A document with another payload for the level at a path. -/
def withPayload (document : Document) (entry : List Nat) (payload : String) : Document :=
  document.update entry (·.setString Element.levelPayloadKey payload)

/-- An element is a level of a document whose payload can be set. -/
structure Holds (document : Document) (entry : List Nat) (element : Element) : Prop where
  /-- The path is that of a level. -/
  member : entry ∈ document.levels
  /-- The element is found there. -/
  found : document.element? entry = some element
  /-- Its payload can be set. -/
  settable : element.IsSettable Element.levelPayloadKey

section Payload

variable {document : Document} {entry : List Nat} {element : Element}
  (held : Holds document entry element) (payload : String)
include held

theorem isLevel_of_holds : element.isLevel = true := by
  obtain ⟨level, found, isLevel⟩ := Document.element_of_mem_levels held.member
  obtain rfl : level = element := Option.some.inj (found.symm.trans held.found)
  exact isLevel

theorem value?_levelNameKey_setString :
    (element.setString Element.levelPayloadKey payload).value? Element.levelNameKey =
      element.value? Element.levelNameKey := by
  obtain ⟨-, present⟩ := Bool.and_eq_true_iff.1 (isLevel_of_holds held)
  obtain ⟨child, value⟩ := Option.isSome_iff_exists.1 present
  rw [value, Element.value?_setString_of_ne held.settable payload (by decide) value]

theorem levelName_setString :
    (element.setString Element.levelPayloadKey payload).levelName = element.levelName := by
  rw [Element.levelName, value?_levelNameKey_setString held, Element.levelName]

theorem isDiscreet_setString :
    Document.IsDiscreet (·.setString Element.levelPayloadKey payload) element where
  name := Element.name_setString _ _ _
  text := Element.text_setString _ _ _
  level := isLevel_of_holds held
  still := by
    rw [Element.isLevel, Element.name_setString, value?_levelNameKey_setString held]
    exact isLevel_of_holds held

theorem levels_withPayload : (withPayload document entry payload).levels = document.levels :=
  Document.levels_update (isDiscreet_setString held payload) held.found

theorem element?_withPayload_self :
    (withPayload document entry payload).element? entry =
      some (element.setString Element.levelPayloadKey payload) := by
  rw [withPayload, Document.element?, Document.update, Document.elementIn_updateIn,
    ← Document.element?, held.found, Option.map_some]

theorem element?_withPayload_of_ne {path : List Nat} (member : path ∈ document.levels)
    (ne : path ≠ entry) :
    (withPayload document entry payload).element? path = document.element? path :=
  Document.elementIn_updateIn_of_ne _ held.member member ne

/-- Only the last payload is left. -/
theorem withPayload_withPayload (again : String) :
    withPayload (withPayload document entry payload) entry again =
      withPayload document entry again := by
  have last := Element.setString_setString held.settable payload again
  exact congrArg (Document.mk document.version)
    (Document.updateIn_updateIn (f := (·.setString _ _)) (g := (·.setString _ _))
      (h := (·.setString _ _)) held.found last)

theorem levelName_withPayload {path : List Nat} (member : path ∈ document.levels) :
    ((withPayload document entry payload).element? path).map Element.levelName =
      (document.element? path).map Element.levelName := by
  by_cases same : path = entry
  · rw [same, element?_withPayload_self held, held.found, Option.map_some, Option.map_some,
      levelName_setString held]
  · rw [element?_withPayload_of_ne held payload member same]

theorem namesIn_withPayload : namesIn (withPayload document entry payload) = namesIn document := by
  unfold namesIn
  rw [levels_withPayload held]
  exact List.filterMap_congr fun path member => levelName_withPayload held payload member

theorem select_withPayload (wanted : Option String) :
    select (withPayload document entry payload) wanted = select document wanted := by
  cases wanted with
  | none => rw [select, select, levels_withPayload held]
  | some wanted =>
      have same : document.levels.find? (fun path =>
            ((withPayload document entry payload).element? path).any (·.levelName == wanted)) =
          document.levels.find? fun path =>
            (document.element? path).any (·.levelName == wanted) := by
        rw [← List.head?_filter, ← List.head?_filter]
        refine congrArg List.head? (List.filter_congr fun path member => ?_)
        have names := congrArg (Option.any (· == wanted))
          (levelName_withPayload held payload member)
        rwa [Option.any_map, Option.any_map] at names
      rw [select, select, levels_withPayload held, same]

/-- The payload is read back. -/
theorem payloadOf_setString :
    payloadOf (element.setString Element.levelPayloadKey payload) = .ok payload := by
  obtain ⟨child, value, text⟩ := Element.value?_setString_self held.settable payload
  rw [payloadOf, value]
  simp only [text]
  rfl

end Payload

/-! ## Edits -/

/-- A change of the level string. -/
inductive Edit where
  | add (level : String)
  | set (level : String)

/-- The save file after an edit. -/
def Edit.apply (file : SaveFile) : Edit → Except SaveError SaveFile
  | add level => file.add level
  | set level => file.set level

/-- The level string after an edit. -/
def Edit.result (level : String) : Edit → String
  | add more => level ++ more
  | set other => other

/-- The save file after some edits. -/
def edit (file : SaveFile) (edits : List Edit) : Except SaveError SaveFile :=
  edits.foldlM Edit.apply file

theorem Edit.apply_eq_set (file : SaveFile) (edit : Edit) :
    edit.apply file = file.set (edit.result file.data.level) := by
  cases edit <;> rfl

/-- A save file with another level string. -/
def withLevel (file : SaveFile) (level : String) : SaveFile :=
  { file with
    document := withPayload file.document file.entry (Level.toPayload level)
    data := { file.data with payload := Level.toPayload level, level } }

@[simp]
theorem directory_withLevel (file : SaveFile) (level : String) :
    (file.withLevel level).directory = file.directory := rfl

@[simp]
theorem level_withLevel (file : SaveFile) (level : String) :
    (file.withLevel level).data.level = level := rfl

@[simp]
theorem name_withLevel (file : SaveFile) (level : String) :
    (file.withLevel level).data.name = file.data.name := rfl

theorem set_eq {file : SaveFile} {element : Element}
    (found : file.document.element? file.entry = some element) (level : String) :
    file.set level = .ok (file.withLevel level) := by
  simp only [set, found]
  rfl

section Edits

variable {file : SaveFile} {element : Element} (held : Holds file.document file.entry element)
include held

/-- A level string is forgotten once another one is set. -/
theorem withLevel_withLevel (level again : String) :
    (file.withLevel level).withLevel again = file.withLevel again := by
  simp only [withLevel, withPayload_withPayload held]

theorem set_withLevel (level again : String) :
    (file.withLevel level).set again = .ok (file.withLevel again) := by
  have found : (file.withLevel level).document.element? file.entry = _ :=
    element?_withPayload_self held (Level.toPayload level)
  rw [set_eq found, withLevel_withLevel held]

theorem edit_withLevel (level : String) (edits : List Edit) :
    (file.withLevel level).edit edits =
      .ok (file.withLevel (edits.foldl Edit.result level)) := by
  induction edits generalizing level with
  | nil => rfl
  | cons first edits ih =>
      rw [edit, List.foldlM_cons, Edit.apply_eq_set, set_withLevel held]
      exact ih _

/-- Edits succeed, and the level string is what they make of it. -/
theorem edit_eq {edits : List Edit} (nonempty : edits ≠ []) :
    file.edit edits = .ok (file.withLevel (edits.foldl Edit.result file.data.level)) := by
  cases edits with
  | nil => exact absurd rfl nonempty
  | cons first edits =>
      rw [edit, List.foldlM_cons, Edit.apply_eq_set, set_eq held.found]
      exact edit_withLevel held _ edits

end Edits

/-! ## Reopening -/

/-- The keys and the values of the selected level take turns, and a payload is a plain string. -/
def TakesTurns (file : SaveFile) : Prop :=
  ∀ element, file.document.element? file.entry = some element →
    Element.TakeTurns Element.levelPayloadKey (element.elements.map (·.2))

instance (file : SaveFile) : Decidable file.TakesTurns :=
  inferInstanceAs (Decidable (∀ element ∈ file.document.element? file.entry,
    Element.TakeTurns Element.levelPayloadKey (element.elements.map (·.2))))

/-- The document with another level string is read as it is written. -/
def IsReadBack (file : SaveFile) (level : String) : Prop :=
  Document.parse (file.withLevel level).document.write = .ok (file.withLevel level).document

theorem isReadBack_of_eq {file : SaveFile} {level : String} {document : Document}
    (same : (file.withLevel level).document = document)
    (readBack : Document.parse document.write = .ok document) : file.IsReadBack level := by
  rwa [IsReadBack, same]

/-- From a disk a save file opens with a level string and is otherwise what it was: the level has
its name, the levels are listed in their order, and the other ones are the same. -/
def Reopens (file : SaveFile) (disk : Disk) (directory : SaveDirectory) (wanted : Option String)
    (level : String) : Prop :=
  ∃ reopened, disk.outcome (openLevel directory wanted) = (.ok reopened, disk) ∧
    reopened.data.level = level ∧ reopened.data.name = file.data.name ∧
    disk.outcome (levelNames directory) = (.ok (namesIn file.document), disk) ∧
    reopened.document.levels = file.document.levels ∧
    ∀ path ∈ file.document.levels, path ≠ file.entry →
      reopened.document.element? path = file.document.element? path

section Reopen

variable {directory : SaveDirectory} {text : String} {wanted : Option String} {file : SaveFile}
  (opened : ofText directory text wanted = .ok file)
include opened

theorem holds_of_ofText (turns : file.TakesTurns) :
    ∃ element, Holds file.document file.entry element := by
  obtain ⟨-, -, selected, element, found, -⟩ := ofText_eq_ok.1 opened
  exact ⟨element, mem_levels_of_select selected, found,
    Element.isSettable_of_takeTurns (turns element found)⟩

/-- A document that is read as it is written opens as it did. -/
theorem ofText_write (readBack : Document.parse file.document.write = .ok file.document) :
    ofText directory file.document.write wanted = .ok file := by
  obtain ⟨place, -, selected⟩ := ofText_eq_ok.1 opened
  refine ofText_eq_ok.2 ⟨place, ?_, selected⟩
  rw [readDocument, readBack]
  rfl

/-- With another level string it opens as what it was written from. -/
theorem ofText_withLevel (turns : file.TakesTurns) {level : String}
    (readBack : file.IsReadBack level) :
    ofText directory (file.withLevel level).document.write wanted = .ok (file.withLevel level) := by
  obtain ⟨element, held⟩ := holds_of_ofText opened turns
  obtain ⟨place, -, selected, other, found, named, -⟩ := ofText_eq_ok.1 opened
  obtain rfl : element = other := Option.some.inj (held.found.symm.trans found)
  refine ofText_eq_ok.2 ⟨place, ?_, ?_, element.setString Element.levelPayloadKey
    (Level.toPayload level), element?_withPayload_self held _, ?_, payloadOf_setString held _,
    levelOf_toPayload level⟩
  · rw [readDocument, readBack]
    rfl
  · exact (select_withPayload held _ wanted).trans selected
  · exact (levelName_setString held _).trans named

/-- After a save it is what is opened. -/
theorem outcome_openLevel_of_save {disk saved : Disk}
    (readBack : Document.parse file.document.write = .ok file.document)
    (done : disk.outcome file.save = (.ok (), saved)) :
    saved.outcome (openLevel directory wanted) = (.ok file, saved) := by
  obtain ⟨rfl, -⟩ := ofText_eq_ok.1 opened
  obtain ⟨bytes, primary, -, decrypted⟩ := records_of_save done
  rw [outcome_openLevel primary decrypted, ofText_write opened readBack]

theorem reopens_of_save {disk saved : Disk}
    (readBack : Document.parse file.document.write = .ok file.document)
    (done : disk.outcome file.save = (.ok (), saved)) :
    file.Reopens saved directory wanted file.data.level := by
  refine ⟨file, outcome_openLevel_of_save opened readBack done, rfl, rfl, ?_, rfl,
    fun _ _ _ => rfl⟩
  obtain ⟨rfl, -⟩ := ofText_eq_ok.1 opened
  obtain ⟨bytes, primary, -, decrypted⟩ := records_of_save done
  refine outcome_levelNames primary decrypted ?_
  rw [readDocument, readBack]
  rfl

/-- A save file that was saved with another level string opens with that one. -/
theorem reopens_withLevel {disk saved : Disk} {level : String} (turns : file.TakesTurns)
    (readBack : file.IsReadBack level)
    (done : disk.outcome (file.withLevel level).save = (.ok (), saved)) :
    file.Reopens saved directory wanted level := by
  obtain ⟨element, held⟩ := holds_of_ofText opened turns
  obtain ⟨reopened, opens, same, named, names, levels, others⟩ :=
    reopens_of_save (ofText_withLevel opened turns readBack) readBack done
  refine ⟨reopened, opens, same, named, ?_, ?_, fun path member ne => ?_⟩
  · exact names.trans (by rw [withLevel, namesIn_withPayload held])
  · exact levels.trans (levels_withPayload held _)
  · refine (others path ?_ ne).trans (element?_withPayload_of_ne held _ member ne)
    exact (levels_withPayload held _).symm ▸ member

end Reopen

/-- A save file that was opened from a text is edited, saved and opened again. It is assumed that
the document that is written is also what is read. -/
theorem edits_survive_save {directory : SaveDirectory} {text : String} {wanted : Option String}
    {file : SaveFile} (opened : ofText directory text wanted = .ok file)
    (turns : ∀ element, file.document.element? file.entry = some element →
      Element.TakeTurns Element.levelPayloadKey (element.elements.map (·.2)))
    (edits : List Edit) :
    ∃ edited, file.edit edits = .ok edited ∧
      (∀ before after, edits = before ++ after → before ≠ [] →
        ∃ between, file.edit before = .ok between ∧
          Level.ofPayload between.data.payload = .ok between.data.level) ∧
      ∀ disk saved : Disk, Document.parse edited.document.write = .ok edited.document →
        (edited.save (m := StateM Disk)).run.run disk = (.ok (), saved) →
        ∃ reopened, (openLevel (m := StateM Disk) directory wanted).run.run saved =
            (.ok reopened, saved) ∧
          reopened.data.level = edits.foldl Edit.result file.data.level ∧
          reopened.data.name = file.data.name ∧
          (levelNames (m := StateM Disk) directory).run.run saved =
            (.ok (namesIn file.document), saved) ∧
          reopened.document.levels = file.document.levels ∧
          ∀ path ∈ file.document.levels, path ≠ file.entry →
            reopened.document.element? path = file.document.element? path := by
  obtain ⟨element, held⟩ := holds_of_ofText opened turns
  by_cases none : edits = []
  · subst none
    refine ⟨file, rfl, fun before after split nonempty => ?_, fun disk saved readBack done => ?_⟩
    · exact absurd (List.append_eq_nil_iff.1 split.symm).1 nonempty
    · exact reopens_of_save opened readBack done
  · refine ⟨_, edit_eq held none, fun before after _ nonempty => ?_,
      fun disk saved readBack done => ?_⟩
    · exact ⟨_, edit_eq held nonempty, Level.ofPayload_toPayload _⟩
    · exact reopens_withLevel opened turns readBack done

/-- An element without attributes. -/
def plain (name : String) (children : List Node) : Node := .element ⟨name, name, false⟩ children

/-- A document with one level, which may have a payload. -/
def oneLevel (payload : Option String) : Document :=
  ⟨none, [plain "d" [
    plain "d" ([plain "k" [.text "k2"], plain "s" [.text "A"]] ++ payload.elim [] fun payload =>
      [plain "k" [.text "k4"], plain "s" [.text payload]])]]⟩

/-- A save file with one level, which has a payload. -/
def stored (payload level : String) : SaveFile :=
  ⟨⟨"/saves"⟩, oneLevel (some payload), [0, 0], ⟨"A", payload, level⟩⟩

theorem ofText_stored {text payload level : String}
    (parsed : readDocument text = .ok (oneLevel (some payload)))
    (selected : select (oneLevel (some payload)) none = .ok [0, 0])
    (read : ((oneLevel (some payload)).element? [0, 0]).map (fun element =>
      (element.levelName, payloadOf element)) = some ("A", .ok payload))
    (encoded : Level.toPayload level = payload) :
    ofText ⟨"/saves"⟩ text none = .ok (stored payload level) := by
  obtain ⟨element, found, same⟩ := Option.map_eq_some_iff.1 read
  obtain ⟨name, holds⟩ := Prod.mk.inj same
  refine ofText_eq_ok.2 ⟨rfl, parsed, selected, element, found, name, holds, ?_⟩
  exact (congrArg levelOf encoded.symm).trans (levelOf_toPayload level)

/-- A document with two levels.  The second has a key without a value, and more behind it. -/
def twoLevels (more : List Node) : Document :=
  ⟨none, [plain "d" [
    plain "d" [plain "k" [.text "k2"], plain "s" [.text "A"]],
    plain "d" ([plain "k" [.text "k2"], plain "s" [.text "R&amp;D"], plain "k" [.text "k50"]] ++
      more)]]⟩

/-- The second of two levels is given a payload by three edits. -/
theorem second_level_survives_save :
    ∃ file edited reopened saved,
      ofText ⟨"/saves"⟩ "<d><d><k>k2</k><s>A</s></d><d><k>k2</k><s>R&amp;D</s><k>k50</k></d></d>"
        (some "R&D") = .ok file ∧
      file.edit [.add "a;", .set "b", .add ";"] = .ok edited ∧
      (edited.save (m := StateM Disk)).run.run (.inDirectory ["saves"]) = (.ok (), saved) ∧
      (openLevel (m := StateM Disk) ⟨"/saves"⟩ (some "R&D")).run.run saved = (.ok reopened, saved) ∧
      reopened.data.level = "b;" ∧ reopened.data.name = "R&D" ∧
      (levelNames (m := StateM Disk) ⟨"/saves"⟩).run.run saved = (.ok ["A", "R&D"], saved) := by
  have opened : ofText ⟨"/saves"⟩
      "<d><d><k>k2</k><s>A</s></d><d><k>k2</k><s>R&amp;D</s><k>k50</k></d></d>" (some "R&D") =
      .ok ⟨⟨"/saves"⟩, twoLevels [], [0, 1], ⟨"R&D", "", ""⟩⟩ := by decide +kernel
  have turns : ∀ element, (twoLevels []).element? [0, 1] = some element →
      Element.TakeTurns Element.levelPayloadKey (element.elements.map (·.2)) := by
    change ∀ element ∈ (twoLevels []).element? [0, 1], _
    decide +kernel
  have names : namesIn (twoLevels []) = ["A", "R&D"] := by decide +kernel
  obtain ⟨edited, run, -, survives⟩ :=
    edits_survive_save opened turns [.add "a;", .set "b", .add ";"]
  have reached : (edit ⟨⟨"/saves"⟩, twoLevels [], [0, 1], ⟨"R&D", "", ""⟩⟩
      [.add "a;", .set "b", .add ";"]).map (fun edited => (edited.directory, edited.document)) =
      .ok (⟨"/saves"⟩, twoLevels [plain "k" [.text "k4"],
        plain "s" [.text "H4sIAAAAAAAA_0uyBgD-8hmnAgAAAA=="]]) := by decide +kernel
  rw [run] at reached
  obtain ⟨directory, document⟩ := Prod.mk.inj (Except.ok.inj reached)
  have readBack : Document.parse edited.document.write = .ok edited.document := by
    rw [document]
    decide +kernel
  have done : ∃ saved, (edited.save (m := StateM Disk)).run.run (.inDirectory ["saves"]) =
      (.ok (), saved) := by
    rw [save, directory]
    exact ⟨_, rfl⟩
  obtain ⟨saved, done⟩ := done
  obtain ⟨reopened, again, level, name, listed, -⟩ := survives _ saved readBack done
  rw [names] at listed
  exact ⟨_, edited, reopened, saved, opened, run, done, again, level, name, listed⟩

end SaveFile
end TriggerGraph
