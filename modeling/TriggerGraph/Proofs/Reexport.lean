import TriggerGraph.Proofs.Edits
import TriggerGraph.Proofs.ExactDouble
import TriggerGraph.Proofs.Objects

/-!
# Replacing an earlier export

An object that joined the marker group still carries it after being written and read, whatever its
groups looked like before.  Stripping the marker from a level that ends in such objects therefore
drops exactly them, and a second export replaces exactly what the first one wrote.
-/

namespace TriggerGraph

/-! ## The marker on the wire -/

namespace Level

/-- Joining a group always gives a list of ids with the group among them. -/
theorem encodeValue_joinGroup (key : String) (marker : UInt32) (old : Option Value) :
    ∃ ids : List Int64,
      encodeValue key (Value.joinGroup (.group marker) old) =
          .ok (dotted (ids.map Int64.toInt)) ∧
        Int64.ofNat marker.toNat ∈ ids := by
  obtain ⟨members, joined, member⟩ | ⟨ids, joined, member⟩ :=
    Value.joinGroup_cases (.group marker) old
  · refine ⟨members.map fun r => Int64.ofNat r.value.toNat, ?_, List.mem_map.2 ⟨_, member, rfl⟩⟩
    rw [joined]
    simp only [encodeValue, List.map_map, Function.comp_def, toInt_ofNat_toNat]
  · exact ⟨ids, by rw [joined]; rfl, member⟩

theorem namesGroup_readValue {kind : Kind} (isList : kind.isList = true) {ids : List Int64}
    {marker : UInt32} (member : Int64.ofNat marker.toNat ∈ ids) :
    (readValue (some kind) (dotted (ids.map Int64.toInt))).namesGroup marker = true := by
  cases ids with
  | nil => cases member
  | cons first others =>
      rw [readValue_dotted (some kind) first others (.inl isList)]
      split
      · rename_i alone
        subst alone
        obtain rfl := List.mem_singleton.1 member
        have small : marker.toNat < 2 ^ 32 := marker.toNat_lt
        rw [toInt_ofNat_toNat, Value.ofInt, Value.namesGroup,
          Double.toInt64_ofInt (by omega), Int64.ofInt_eq_ofNat, beq_self_eq_true]
      · simpa [Value.namesGroup] using member

theorem readKey?_groups : readKey? .builtin (encodeKey .builtin Field.groups) =
    some ⟨57, Field.groups, .references .group⟩ := by
  have key : encodeKey .builtin Field.groups = naturalText (57 : UInt32).toNat := rfl
  rw [readKey?, key, readUInt32?_naturalText]
  rfl

theorem isWritable_groups : IsWritable Field.groups := by
  decide +kernel

theorem isKey_addGroup (table : Table) {object : Object} (group : Reference)
    (writable : ∀ field ∈ object.fields, IsWritable field.1) :
    ∀ field ∈ (object.addGroup group).fields, IsKey table field.1 := by
  intro field member
  rw [Object.fields_addGroup] at member
  rcases List.mem_append.1 member with old | joined
  · exact isKey_of_writable table (writable field (List.mem_of_mem_eraseP old))
  · rw [List.mem_singleton.1 joined]
    exact isKey_of_writable table isWritable_groups

/-- The marker survives being written and read.  It stands last, so no other field that is read
under the name of the groups can hide it. -/
theorem isMarked_of_encodeFields {object : Object} {marker : UInt32} {text : List Char}
    (writable : ∀ field ∈ object.fields, IsWritable field.1)
    (written : encodeFields .builtin (object.addGroup (.group marker)).fields = .ok text) :
    isMarked .builtin marker text = true := by
  obtain ⟨pairs, rfl, spells⟩ := spells_of_encodeFields written
  rw [isMarked, decodeSegment_pairText .builtin (isKey_addGroup _ _ writable) spells]
  rw [Object.fields_addGroup, ← List.forall₂_reverse_iff, List.reverse_concat] at spells
  obtain ⟨last, others, ⟨lastKey, lastValue⟩, -, reversed⟩ := List.forall₂_cons_left_iff.1 spells
  obtain ⟨ids, valueWritten, member⟩ := encodeValue_joinGroup Field.groups marker
    (object.get? Field.groups)
  obtain rfl : pairs = others.reverse ++ [last] := by
    rw [← List.reverse_reverse pairs, reversed, List.reverse_cons]
  have lastText : last.2 = dotted (ids.map Int64.toInt) := by
    rw [valueWritten] at lastValue
    exact (Except.ok.inj lastValue).symm
  have lastField : readField .builtin last.1 last.2 =
      (Field.groups, readValue (some (.references .group)) (dotted (ids.map Int64.toInt))) := by
    rw [readField, lastKey, readKey?_groups, lastText]
  rw [List.map_append, List.map_singleton, lastField, Object.hasGroup,
    Object.get?_ofFields_append, Option.any_some]
  exact namesGroup_readValue rfl member

/-! ## Stripping -/

theorem closable_of_encodeFields {object : Object} {marker : UInt32} {text : List Char}
    (writable : ∀ field ∈ object.fields, IsWritable field.1)
    (written : encodeFields .builtin (object.addGroup (.group marker)).fields = .ok text) :
    ';' ∉ text ∧ text ≠ [] := by
  constructor
  · obtain ⟨pairs, rfl, spells⟩ := spells_of_encodeFields written
    have plain := plain_of_spells (isKey_addGroup _ _ writable) spells
    exact semicolon_not_mem_pairText fun pair member => (plain pair member).2
  · rintro rfl
    have marked := isMarked_of_encodeFields writable written
    cases marked

/-- The objects of an export stand in a level as segments that carry the marker. -/
theorem segments_of_encode {marker : UInt32} {objects : List Object} {encoded : String}
    (writable : ∀ object ∈ objects, ∀ field ∈ object.fields, IsWritable field.1)
    (written : encode .builtin (objects.map (·.addGroup (.group marker))) = .ok encoded) :
    ∃ texts : List (List Char),
      encoded.toList = texts.flatMap (· ++ [';']) ∧ texts.length = objects.length ∧
        ∀ text ∈ texts, (';' ∉ text ∧ text ≠ []) ∧ isMarked .builtin marker text = true := by
  rw [encode] at written
  cases result : encodeObjects .builtin (objects.map (·.addGroup (.group marker))) with
  | error failure =>
      rw [result] at written
      cases written
  | ok text =>
      rw [result] at written
      obtain ⟨texts, rfl, each⟩ := fields_of_encodeObjects result
      rw [List.forall₂_map_left_iff] at each
      cases written
      refine ⟨texts, String.toList_ofList, each.length_eq.symm, ?_⟩
      exact forall_of_forall₂ each fun object present text fieldsWritten =>
        ⟨closable_of_encodeFields (writable object present) fieldsWritten,
          isMarked_of_encodeFields (writable object present) fieldsWritten⟩

/-- Stripping a level that was stripped and then continued by an export drops the export. -/
theorem strip_append_export {marker : UInt32} {objects : List Object} {encoded : String}
    (writable : ∀ object ∈ objects, ∀ field ∈ object.fields, IsWritable field.1)
    (written : encode .builtin (objects.map (·.addGroup (.group marker))) = .ok encoded)
    (level : String) :
    strip .builtin marker ((strip .builtin marker level).level ++ encoded) =
      ⟨(strip .builtin marker level).level, objects.length⟩ := by
  obtain ⟨texts, closed, count, marked⟩ := segments_of_encode writable written
  have dropped : strip .builtin marker encoded = ⟨"", objects.length⟩ := by
    rw [← count]
    exact strip_of_marked closed (fun text member => (marked text member).1)
      fun text member => (marked text member).2
  rw [strip_append .builtin marker (closed_strip .builtin marker level), strip_strip, dropped,
    String.append_empty, Nat.zero_add]

end Level

/-! ## Exporting twice -/

namespace Export

open Disk

/-- An export with replacement writes the objects with the marker, unless that is in use. -/
theorem prepare_eq_ok {compiler : Compiler} {options : ExportOptions}
    {prepared : List Object × String} (replace : options.replace = true) :
    prepare compiler options = .ok prepared ↔
      compiler.isGroupInUse options.marker = false ∧
        prepared.1 = compiler.flush.map (·.addGroup (.group options.marker)) ∧
        Level.encode .builtin prepared.1 = .ok prepared.2 := by
  obtain ⟨written, encoded⟩ := prepared
  simp only [prepare, objects, replace, if_true, SaveFile.bind_eq_ok, SaveFile.wrap_eq_ok, pure,
    Except.pure, Except.ok.injEq, Prod.mk.injEq]
  cases compiler.isGroupInUse options.marker with
  | true => simp
  | false =>
      simp only [Bool.false_eq_true, if_false, Except.ok.injEq, true_and]
      constructor
      · rintro ⟨_, rfl, _, encodes, rfl, rfl⟩
        exact ⟨rfl, encodes⟩
      · rintro ⟨rfl, encodes⟩
        exact ⟨_, rfl, _, encodes, rfl, rfl⟩

/-- An export with replacement succeeds exactly if its objects can be prepared and the level, with
them in the place of the marked ones, can be saved. -/
theorem outcome_run_eq_ok {compiler : Compiler} {directory : SaveDirectory}
    {options : ExportOptions} (replace : options.replace = true) {disk after : Disk}
    {file : SaveFile} {summary : ExportSummary}
    (opened : disk.outcome (SaveFile.openLevel directory options.level) = (.ok file, disk)) :
    disk.outcome (run compiler directory options) = (.ok summary, after) ↔
      ∃ prepared, prepare compiler options = .ok prepared ∧
        disk.outcome (file.withLevel ((Level.strip .builtin options.marker
          file.data.level).level ++ prepared.2)).save = (.ok (), after) ∧
        summary = ⟨file.data.name, prepared.1.length,
          (Level.strip .builtin options.marker file.data.level).removed⟩ := by
  obtain ⟨text, selected⟩ := SaveFile.exists_text_of_openLevel opened
  obtain ⟨-, -, -, element, found, -⟩ := SaveFile.ofText_eq_ok.1 selected
  rw [run, outcome_settle_bind_eq_ok]
  refine exists_congr fun prepared => and_congr_right fun _ => ?_
  have placed : disk.outcome (Failure.settle (place options prepared file)) =
      (.ok (file.withLevel ((Level.strip .builtin options.marker file.data.level).level ++
        prepared.2), ⟨file.data.name, prepared.1.length,
          (Level.strip .builtin options.marker file.data.level).removed⟩), disk) := by
    rw [place, remaining, if_pos replace, SaveFile.set_eq found]
    rfl
  rw [outcome_bind_of_ok opened, outcome_bind_of_ok placed, outcome_bind_pure_eq_ok]

/-- Stripping the marker from a stripped level with an export behind it gives the stripped level
back and counts the objects of the export.  So an export with replacement replaces exactly what an
earlier one wrote: it counts the objects of the earlier one, and leaves the same disk as if the
earlier one had not been made.  The keys and the values of the level have to take turns, and the
document of the earlier export has to be read as it is written. -/
theorem export_replaces_earlier_export (marker : UInt32) (objects : List Object)
    (writable : ∀ object ∈ objects, ∀ field ∈ object.fields, Level.IsWritable field.1)
    (encoded : String)
    (written : Level.encode .builtin (objects.map (·.addGroup (.group marker))) = .ok encoded) :
    (∀ level : String,
      Level.strip .builtin marker ((Level.strip .builtin marker level).level ++ encoded) =
        ⟨(Level.strip .builtin marker level).level, objects.length⟩) ∧
    ∀ (first second : Compiler) (options : ExportOptions) (directory : SaveDirectory)
      (disk afterFirst : Disk) (file : SaveFile) (firstSummary : ExportSummary)
      (prepared : List Object × String),
      first.flush = objects → options.replace = true → options.marker = marker →
      disk.outcome (SaveFile.openLevel directory options.level) = (.ok file, disk) →
      file.TakesTurns →
      disk.outcome (run first directory options) = (.ok firstSummary, afterFirst) →
      prepare second options = .ok prepared →
      let kept := Level.strip .builtin marker file.data.level
      file.IsReadBack (kept.level ++ encoded) →
      firstSummary = ⟨file.data.name, objects.length, kept.removed⟩ ∧
      ∃ after,
        disk.outcome (run second directory options) =
          (.ok ⟨file.data.name, prepared.1.length, kept.removed⟩, after) ∧
        afterFirst.outcome (run second directory options) =
          (.ok ⟨file.data.name, prepared.1.length, objects.length⟩, after) ∧
        (file.IsReadBack (kept.level ++ prepared.2) →
          file.Reopens after directory options.level (kept.level ++ prepared.2)) := by
  have stripped := Level.strip_append_export writable written
  refine ⟨stripped, ?_⟩
  rintro first second options directory disk afterFirst file firstSummary prepared rfl replace rfl
    opened turns ran ready kept readBack
  obtain ⟨text, selected⟩ := SaveFile.exists_text_of_openLevel opened
  obtain ⟨element, held⟩ := SaveFile.holds_of_ofText selected turns
  obtain ⟨firstPrepared, firstReady, saved, rfl⟩ := (outcome_run_eq_ok replace opened).1 ran
  obtain ⟨-, firstMarked, firstWritten⟩ := (prepare_eq_ok replace).1 firstReady
  have sameText : firstPrepared.2 = encoded := by
    rw [firstMarked, written] at firstWritten
    exact (Except.ok.inj firstWritten).symm
  rw [sameText] at saved
  -- The second export finds what the first one saved, and saves over it.
  have reopened := SaveFile.outcome_openLevel_of_save
    (SaveFile.ofText_withLevel selected turns readBack) readBack saved
  have place : (file.withLevel (kept.level ++ prepared.2)).directory =
      (file.withLevel (kept.level ++ encoded)).directory := by
    rw [SaveFile.directory_withLevel, SaveFile.directory_withLevel]
  obtain ⟨after, alone, again⟩ := SaveFile.save_forgets place saved
  refine ⟨?_, after, ?_, ?_, fun secondReadBack => ?_⟩
  · rw [firstMarked, List.length_map]
  · exact (outcome_run_eq_ok replace opened).2 ⟨prepared, ready, alone, rfl⟩
  · refine (outcome_run_eq_ok replace reopened).2 ⟨prepared, ready, ?_, ?_⟩
    · rw [SaveFile.withLevel_withLevel held, SaveFile.level_withLevel, stripped]
      exact again
    · rw [SaveFile.level_withLevel, SaveFile.name_withLevel, stripped]
  · exact SaveFile.reopens_withLevel selected turns secondReadBack alone

/-- An object with a key that is read as its groups, and with groups that are a number. -/
def disguised : Object :=
  .ofFields [("57", .text "4"), (Field.groups, .ofInt 4), ("LABEL", .text "")]

/-- A compilation of a single object. -/
def single (object : Object) : Compiler :=
  (Compiler.start ⟨.zero, none⟩ fun _ => "").addTo 0 object

/-- Replace what carries the usual marker. -/
def replacing : ExportOptions := ⟨none, true, defaultMarker⟩

/-- The text of a document whose level holds an object and two from an earlier export. -/
def exportedText : String :=
  "<d><d><k>k2</k><s>A</s><k>k4</k><s>H4sIAAAAAAAA_zPUMdQx0jE0tTY117EEAjgNAP4iRyAZAAAA</s></d></d>"

/-- What it opens as. -/
def exported : SaveFile :=
  .stored "H4sIAAAAAAAA_zPUMdQx0jE0tTY117EEAjgNAP4iRyAZAAAA" "1,1,2,15;57,9999;57,9999;"

theorem outcome_openLevel_exported :
    (holding exportedText).outcome (SaveFile.openLevel ⟨"/saves"⟩ replacing.level) =
      (.ok exported, holding exportedText) := by
  have opened : SaveFile.ofText ⟨"/saves"⟩ exportedText replacing.level = .ok exported :=
    SaveFile.ofText_stored (by decide +kernel) (by decide +kernel) (by decide +kernel)
      (by decide +kernel)
  rw [outcome_openLevel_holding, opened]

theorem isReadBack_exported :
    exported.IsReadBack "1,1,2,15;57,4,LABEL,,57,4.9999,;" ∧
      exported.IsReadBack "1,1,2,15;1,2,57,9999,;" := by
  have first : (exported.withLevel "1,1,2,15;57,4,LABEL,,57,4.9999,;").document = SaveFile.oneLevel
      (some "H4sIAAAAAAAA_zPUMdQx0jE0tTY11zHR8XF0cvXR0QGx9SyBQMcaANsya70gAAAA") := by
    decide +kernel
  have second : (exported.withLevel "1,1,2,15;1,2,57,9999,;").document = SaveFile.oneLevel
      (some "H4sIAAAAAAAA_zPUMdQx0jE0tQZRpuY6lkCgYw0AsLppThYAAAA=") := by
    decide +kernel
  exact ⟨SaveFile.isReadBack_of_eq first (by decide +kernel),
    SaveFile.isReadBack_of_eq second (by decide +kernel)⟩

/-- The level holds two objects of an earlier export, which are gone.  The disguised one, exported
then, goes with the next export, and nothing is left of it. -/
theorem disguised_export_is_replaced :
    Level.strip .builtin 9999
        ((Level.strip .builtin 9999 "1,1,2,15;57,9999;57,9999;").level ++
          "57,4,LABEL,,57,4.9999,;") =
      ⟨(Level.strip .builtin 9999 "1,1,2,15;57,9999;57,9999;").level, 1⟩ ∧
    ∃ afterFirst after reopened,
      (holding exportedText).outcome (run (single disguised) ⟨"/saves"⟩ replacing) =
        (.ok ⟨"A", 1, 2⟩, afterFirst) ∧
      afterFirst.outcome (run (single (.ofFields [("OBJ_ID", .ofInt 2)])) ⟨"/saves"⟩ replacing) =
        (.ok ⟨"A", 1, 1⟩, after) ∧
      (holding exportedText).outcome
          (run (single (.ofFields [("OBJ_ID", .ofInt 2)])) ⟨"/saves"⟩ replacing) =
        (.ok ⟨"A", 1, 2⟩, after) ∧
      after.outcome (SaveFile.openLevel ⟨"/saves"⟩ none) = (.ok reopened, after) ∧
      reopened.data.level = "1,1,2,15;1,2,57,9999,;" := by
  have written : Level.encode .builtin ([disguised].map (·.addGroup (.group 9999))) =
      .ok "57,4,LABEL,,57,4.9999,;" := by
    decide +kernel
  have writable : ∀ object ∈ [disguised], ∀ field ∈ object.fields, Level.IsWritable field.1 := by
    decide +kernel
  have kept : Level.strip .builtin 9999 exported.data.level = ⟨"1,1,2,15;", 2⟩ := by
    decide +kernel
  have firstReady : prepare (single disguised) replacing =
      .ok ([disguised].map (·.addGroup (.group 9999)), "57,4,LABEL,,57,4.9999,;") :=
    (prepare_eq_ok rfl).2 ⟨by decide +kernel, rfl, written⟩
  have secondReady : prepare (single (.ofFields [("OBJ_ID", .ofInt 2)])) replacing =
      .ok ([(Object.ofFields [("OBJ_ID", .ofInt 2)]).addGroup (.group 9999)], "1,2,57,9999,;") :=
    (prepare_eq_ok rfl).2 ⟨by decide +kernel, rfl, by decide +kernel⟩
  have opened := outcome_openLevel_exported
  have place := SaveFile.directory_withLevel exported ("1,1,2,15;" ++ "57,4,LABEL,,57,4.9999,;")
  obtain ⟨afterFirst, saved⟩ := exists_save_holding place exportedText
  have ran : (holding exportedText).outcome (run (single disguised) ⟨"/saves"⟩ replacing) =
      (.ok ⟨"A", 1, 2⟩, afterFirst) := by
    have marker : replacing.marker = 9999 := rfl
    refine (outcome_run_eq_ok rfl opened).2 ⟨_, firstReady, ?_, ?_⟩
    · rw [marker, kept]
      exact saved
    · rw [marker, kept]
      rfl
  obtain ⟨firstRead, secondRead⟩ := isReadBack_exported
  obtain ⟨strips, replaces⟩ :=
    export_replaces_earlier_export 9999 [disguised] writable _ written
  obtain ⟨-, after, alone, both, reopens⟩ := replaces (single disguised) _ replacing _ _ _ _ _ _
    rfl rfl rfl opened (by decide +kernel) ran secondReady (by rw [kept]; exact firstRead)
  rw [kept] at alone reopens
  obtain ⟨reopened, opens, level, -⟩ := reopens secondRead
  exact ⟨strips _, afterFirst, after, reopened, ran, both, alone, opens, level⟩

end Export
end TriggerGraph
