import TriggerGraph.Command.Run
import TriggerGraph.Proofs.SaveRoundTrip
import TriggerGraph.Proofs.Stripping

/-!
# Failed edits leave the save files alone

Every edit of a level first only reads, and comes to a plan: an answer, and perhaps a save file that
is to be written.  All checks are made on the way to the plan, so an edit that fails in one of them
leaves the disk as it was.  What a plan writes is one document, to both files.
-/

namespace TriggerGraph

open Disk

/-! ## What is read -/

theorem SaveFile.onlyReads_openLevel (directory : SaveDirectory) (wanted : Option String) :
    OnlyReads (openLevel directory wanted) :=
  .bind (fun _ => rfl) fun _ => .settle _

theorem Command.onlyReads_readInput (request : Request) (file : String) :
    OnlyReads (readInput request file) := by
  unfold readInput
  split
  · exact .settle _
  · exact fun _ => rfl

theorem Settings.onlyReads_load (path : String) : OnlyReads (load path) := by
  refine .bind (fun _ => rfl) fun text => ?_
  split
  · exact fun _ => rfl
  · exact fun _ => rfl

theorem Disk.run_holds (disk : Disk) (path : String) :
    ∃ held, (FileSystem.holds (m := StateM Disk) path).run disk = (held, disk) := by
  cases seen : disk.look path with
  | error fault => exact ⟨false, by simp [FileSystem.holds, seen]; rfl⟩
  | ok entry => exact ⟨true, by simp [FileSystem.holds, seen]; rfl⟩

theorem Disk.run_isDirectory (disk : Disk) (path : String) :
    ∃ held, (FileSystem.isDirectory (m := StateM Disk) path).run disk = (held, disk) := by
  cases seen : disk.look path with
  | error fault => exact ⟨false, by simp [FileSystem.isDirectory, seen]; rfl⟩
  | ok entry => cases entry <;> exact ⟨_, by simp [FileSystem.isDirectory, seen]; rfl⟩

theorem Settings.onlyReads_loadFrom (directory : String) : OnlyReads (loadFrom directory) := by
  refine .bind (.lift fun disk => disk.run_holds _) fun held => ?_
  cases held
  · exact fun _ => rfl
  · exact onlyReads_load _

theorem Surroundings.run_firstDirectory (paths : List String) (disk : Disk) :
    ∃ path, (firstDirectory (m := StateM Disk) paths).run disk = (path, disk) := by
  induction paths with
  | nil => exact ⟨_, rfl⟩
  | cons path paths ih =>
      obtain ⟨held, run⟩ := disk.run_isDirectory path
      rw [firstDirectory, StateT.run_bind, run]
      cases held
      · exact ih
      · exact ⟨path, rfl⟩

theorem Settings.onlyReads_directory (settings : Settings) (surroundings : Surroundings) :
    OnlyReads (ExceptT.lift (settings.directory surroundings)) := by
  refine .lift fun disk => ?_
  unfold directory Surroundings.detect
  split
  · exact ⟨_, rfl⟩
  · split
    · exact ⟨_, rfl⟩
    · obtain ⟨path, run⟩ := Surroundings.run_firstDirectory surroundings.candidates disk
      exact ⟨⟨path⟩, by rw [StateT.run_bind, run]; rfl⟩

/-! ## What is written -/

/-- A failure comes from a write to one of the two files that a disk refused. -/
def Failure.IsOfWriting (directory : SaveDirectory) (failure : Failure) : Prop :=
  ∃ path ∈ [directory.primary, directory.backup],
    ∃ (disk : Disk) (bytes : List UInt8) (fault : FileFault),
      disk.write path bytes = .error fault ∧
        failure = ⟨["writing save file " ++ path], .file fault⟩

namespace SaveFile

/-- A save fails in a write, or both files record the document. -/
theorem outcome_save (file : SaveFile) (disk : Disk) :
    (∃ failure after, disk.outcome file.save = (.error failure, after) ∧
        failure.IsOfWriting file.directory) ∨
      ∃ after, disk.outcome file.save = (.ok (), after) ∧
        after.Records file.directory file.document := by
  unfold save
  cases first : disk.write file.directory.primary (Container.encrypt file.document.write) with
  | error fault =>
      exact .inl ⟨_, _, outcome_bind_of_error (outcome_writeTo_of_error first),
        _, List.mem_cons_self, _, _, _, first, rfl⟩
  | ok middle =>
      rw [outcome_bind_of_ok (outcome_writeTo_of_ok first)]
      cases second : middle.write file.directory.backup
          (Container.encrypt file.document.write) with
      | error fault =>
          exact .inl ⟨_, _, outcome_writeTo_of_error second, _, by simp, _, _, _, second, rfl⟩
      | ok after =>
          have saved : disk.outcome file.save = (.ok (), after) :=
            outcome_save_eq_ok.2 ⟨middle, first, second⟩
          exact .inr ⟨after, outcome_writeTo_of_ok second, records_of_save saved⟩

theorem eq_withLevel_of_set {file changed : SaveFile} {level : String}
    (replaced : file.set level = .ok changed) : changed = file.withLevel level := by
  cases found : file.document.element? file.entry with
  | none =>
      simp only [set, found] at replaced
      cases replaced
  | some element =>
      rw [set_eq found] at replaced
      exact (Except.ok.inj replaced).symm

theorem exists_text_of_openLevel {disk after : Disk} {directory : SaveDirectory}
    {wanted : Option String} {file : SaveFile}
    (opened : disk.outcome (openLevel directory wanted) = (.ok file, after)) :
    ∃ text, ofText directory text wanted = .ok file := by
  have reads : OnlyReads (readPrimary directory) := fun _ => rfl
  obtain ⟨bytes, -, settled⟩ := reads.bind_eq_ok.1 opened
  rw [outcome_settle] at settled
  obtain ⟨text, -, selected⟩ := bind_eq_ok.1 (Prod.mk.inj settled).1
  exact ⟨text, selected⟩

end SaveFile

/-! ## Save files at hand -/

/-- A disk with a save file that has a text. -/
def Disk.holding (text : String) : Disk :=
  (Disk.inDirectory ["saves"]).put ["saves", "CCLocalLevels.dat"] (.file (Container.encrypt text))

theorem outcome_openLevel_holding (text : String) (wanted : Option String) :
    (holding text).outcome (SaveFile.openLevel ⟨"/saves"⟩ wanted) =
      (SaveFile.ofText ⟨"/saves"⟩ text wanted, holding text) := by
  have held : (holding text).read (SaveDirectory.primary ⟨"/saves"⟩) =
      .ok (Container.encrypt text) := read_eq.2 ⟨["saves", "CCLocalLevels.dat"], rfl, rfl⟩
  exact SaveFile.outcome_openLevel held (Container.decrypt_encrypt text) wanted

theorem exists_save_holding {file : SaveFile} (place : file.directory = ⟨"/saves"⟩)
    (text : String) : ∃ after, (holding text).outcome file.save = (.ok (), after) := by
  rw [SaveFile.save, place]
  exact ⟨_, rfl⟩

/-! ## Plans -/

/-- What an edit comes to before anything is written. -/
structure Plan (α : Type) where
  /-- The save file that is to be written, if any. -/
  changed : Option SaveFile
  /-- What is answered then. -/
  answer : α

/-- Write what is to be written, and answer. -/
def Plan.carryOut {α : Type} : Plan α → ExceptT Failure (StateM Disk) α
  | ⟨none, answer⟩ => pure answer
  | ⟨some file, answer⟩ => do
      file.save
      return answer

/-- An edit of a level either leaves the disk as it was, because it failed before it wrote or
because the level is to be kept, or it fails in a write, or both files record what the level
becomes.  What they record opens again with that level and with the others as they were, as long as
the keys and the values of the level take turns and the document is read as it is written. -/
structure IsCareful {α : Type} (directory : SaveDirectory) (wanted : Option String)
    (keeps : SaveFile → Prop) (becomes : SaveFile → String → Prop) (disk : Disk)
    (action : ExceptT Failure (StateM Disk) α) : Prop where
  /-- A failure that is not of writing changes nothing. -/
  failed : ∀ failure after, disk.outcome action = (.error failure, after) →
    ¬failure.IsOfWriting directory → after = disk
  /-- A success keeps the level or records what it becomes. -/
  done : ∀ answer after, disk.outcome action = (.ok answer, after) →
    ∃ opened, disk.outcome (SaveFile.openLevel directory wanted) = (.ok opened, disk) ∧
      (keeps opened ∧ after = disk ∨
        ∃ level, becomes opened level ∧
          after.Records directory
            (SaveFile.withPayload opened.document opened.entry (Level.toPayload level)) ∧
          (opened.TakesTurns → opened.IsReadBack level →
            opened.Reopens after directory wanted level))

/-- An edit that only reads until it has a plan is careful. -/
theorem isCareful_of_plan {α : Type} {directory : SaveDirectory} {wanted : Option String}
    {keeps : SaveFile → Prop} {becomes : SaveFile → String → Prop} {disk : Disk}
    {plan : ExceptT Failure (StateM Disk) (Plan α)} (reads : OnlyReads plan)
    (planned : ∀ changed answer, disk.outcome plan = (.ok ⟨changed, answer⟩, disk) →
      ∃ opened, disk.outcome (SaveFile.openLevel directory wanted) = (.ok opened, disk) ∧
        (keeps opened ∧ changed = none ∨
          ∃ level file, becomes opened level ∧ opened.set level = .ok file ∧
            changed = some file)) :
    IsCareful directory wanted keeps becomes disk (plan >>= Plan.carryOut) := by
  have ended := reads.outcome_eq disk
  cases result : (disk.outcome plan).1 with
  | error failure =>
      rw [result] at ended
      have stopped : disk.outcome (plan >>= Plan.carryOut) = _ := outcome_bind_of_error ended
      constructor
      · intro _ after run _
        exact (Prod.mk.inj (stopped.symm.trans run)).2.symm
      · intro _ after run
        cases stopped.symm.trans run
  | ok reached =>
      obtain ⟨changed, answer⟩ := reached
      rw [result] at ended
      have carried : disk.outcome (plan >>= Plan.carryOut) = _ := outcome_bind_of_ok ended
      obtain ⟨opened, found, ⟨keep, rfl⟩ | ⟨level, file, change, replaced, rfl⟩⟩ :=
        planned changed answer ended
      · constructor
        · intro _ after run _
          cases carried.symm.trans run
        · intro _ after run
          exact ⟨opened, found, .inl ⟨keep, (Prod.mk.inj (carried.symm.trans run)).2.symm⟩⟩
      · obtain rfl := SaveFile.eq_withLevel_of_set replaced
        obtain ⟨text, selected⟩ := SaveFile.exists_text_of_openLevel found
        have place : opened.directory = directory := (SaveFile.ofText_eq_ok.1 selected).1.symm
        rcases (opened.withLevel level).outcome_save disk with
          ⟨failure, last, saved, ofWriting⟩ | ⟨last, saved, records⟩
        · have stopped := carried.trans (outcome_bind_of_error saved)
          constructor
          · intro _ after run other
            cases stopped.symm.trans run
            exact absurd (place ▸ ofWriting) other
          · intro _ after run
            cases stopped.symm.trans run
        · have finished := carried.trans (outcome_bind_of_ok saved)
          constructor
          · intro _ after run _
            cases finished.symm.trans run
          · intro _ after run
            obtain rfl : last = after := (Prod.mk.inj (finished.symm.trans run)).2
            exact ⟨opened, found, .inr ⟨level, change, place ▸ records, fun turns readBack =>
              SaveFile.reopens_withLevel selected turns readBack saved⟩⟩

/-! ## The plan of an export -/

namespace Export

/-- An export up to its first write. -/
def plan (compiler : Compiler) (directory : SaveDirectory) (options : ExportOptions) :
    ExceptT Failure (StateM Disk) (Plan ExportSummary) := do
  let prepared ← Failure.settle (prepare compiler options)
  let file ← SaveFile.openLevel directory options.level
  let placed ← Failure.settle (place options prepared file)
  return ⟨some placed.1, placed.2⟩

variable (compiler : Compiler) (directory : SaveDirectory) (options : ExportOptions)

theorem run_eq_plan :
    run compiler directory options = plan compiler directory options >>= Plan.carryOut := by
  simp only [run, plan, bind_assoc, pure_bind]
  rfl

theorem onlyReads_plan : OnlyReads (plan compiler directory options) :=
  .bind (.settle _) fun _ => .bind (SaveFile.onlyReads_openLevel _ _) fun _ =>
    .bind (.settle _) fun _ _ => rfl

/-- An export appends the encoded objects to what remains of the level. -/
theorem isCareful_run (disk : Disk) :
    IsCareful directory options.level (fun _ => False)
      (fun opened level => ∃ prepared, prepare compiler options = .ok prepared ∧
        level = (remaining options opened.data.level).level ++ prepared.2)
      disk (run compiler directory options) := by
  rw [run_eq_plan]
  refine isCareful_of_plan (onlyReads_plan compiler directory options) fun changed answer run => ?_
  obtain ⟨prepared, ready, run⟩ := outcome_settle_bind_eq_ok.1 run
  obtain ⟨opened, found, run⟩ := (SaveFile.onlyReads_openLevel _ _).bind_eq_ok.1 run
  obtain ⟨placed, put, run⟩ := outcome_settle_bind_eq_ok.1 run
  obtain ⟨file, replaced, same⟩ := SaveFile.bind_eq_ok.1 put
  refine ⟨opened, found, .inr ⟨_, file, ⟨prepared, ready, rfl⟩,
    SaveFile.wrap_eq_ok.1 replaced, ?_⟩⟩
  cases same
  cases run
  rfl

end Export

/-! ## The plans of commands -/

namespace Command

theorem checkLevel_eq_ok {text checked : String} :
    checkLevel text = .ok checked ↔
      checked = text ∧ (text.toList = [] ∨ text.toList.getLast? = some ';') := by
  rw [← List.getLast?_eq_none_iff]
  unfold checkLevel
  split
  · rename_i empty
    simp only [Except.ok.injEq, empty, true_or, and_true, eq_comm]
  · rename_i closed
    simp only [Except.ok.injEq, closed, or_true, and_true, eq_comm]
  · rename_i last other ends
    have apart : last ≠ ';' := other
    simp [ends, apart]

/-- A replacement or continuation up to its first write. -/
def writePlan (request : Request) (level : Option String) (file : String) (append : Bool) :
    ExceptT Failure (StateM Disk) (Plan String) := do
  let text ← readInput request file
  let text ← Failure.settle (checkLevel (trimmed text))
  let opened ← SaveFile.openLevel request.directory (wantedLevel request level)
  let changed ← Failure.settle (Failure.wrap [] .save
    (if append then opened.add text else opened.set text))
  return ⟨some changed, "updated '" ++ changed.data.name ++ "'\n"⟩

/-- The removal of marked objects up to its first write. -/
def cleanPlan (request : Request) (level : Option String) (marker : Option UInt32) :
    ExceptT Failure (StateM Disk) (Plan String) := do
  let marker := marker.getD request.settings.marker
  let opened ← SaveFile.openLevel request.directory (wantedLevel request level)
  let stripped := Level.strip .builtin marker opened.data.level
  if stripped.removed = 0 then
    return ⟨none, "nothing tagged with group " ++ String.ofList (naturalText marker.toNat) ++ "\n"⟩
  let changed ← Failure.settle (Failure.wrap [] .save (opened.set stripped.level))
  return ⟨some changed, "removed " ++ String.ofList (naturalText stripped.removed) ++
    " objects from '" ++ changed.data.name ++ "'\n"⟩

section Plans

variable (request : Request) (level : Option String)

theorem writeLevel_eq_plan (file : String) (append : Bool) :
    writeLevel request level file append =
      writePlan request level file append >>= Plan.carryOut := by
  simp only [writeLevel, writePlan, bind_assoc, pure_bind]
  rfl

theorem clean_eq_plan (marker : Option UInt32) :
    clean request level marker = cleanPlan request level marker >>= Plan.carryOut := by
  simp only [clean, cleanPlan, bind_assoc]
  refine congrArg _ (funext fun opened => ?_)
  split
  · rw [pure_bind]
    rfl
  · simp only [bind_assoc, pure_bind]
    rfl

theorem onlyReads_writePlan (file : String) (append : Bool) :
    OnlyReads (writePlan request level file append) :=
  .bind (onlyReads_readInput _ _) fun _ => .bind (.settle _) fun _ =>
    .bind (SaveFile.onlyReads_openLevel _ _) fun _ => .bind (.settle _) fun _ _ => rfl

theorem onlyReads_cleanPlan (marker : Option UInt32) :
    OnlyReads (cleanPlan request level marker) := by
  refine .bind (SaveFile.onlyReads_openLevel _ _) fun opened => ?_
  dsimp only
  split
  · exact fun _ => rfl
  · exact .bind (.settle _) fun _ _ => rfl

/-- A level becomes the trimmed input, or is continued by it. -/
theorem isCareful_writeLevel (file : String) (append : Bool) (disk : Disk) :
    IsCareful request.directory (wantedLevel request level) (fun _ => False)
      (fun opened new => ∃ text, disk.outcome (readInput request file) = (.ok text, disk) ∧
        ((trimmed text).toList = [] ∨ (trimmed text).toList.getLast? = some ';') ∧
        new = if append then opened.data.level ++ trimmed text else trimmed text)
      disk (writeLevel request level file append) := by
  rw [writeLevel_eq_plan]
  refine isCareful_of_plan (onlyReads_writePlan request level file append)
    fun changed answer run => ?_
  obtain ⟨text, input, run⟩ := (onlyReads_readInput _ _).bind_eq_ok.1 run
  obtain ⟨checked, passed, run⟩ := outcome_settle_bind_eq_ok.1 run
  obtain ⟨rfl, closed⟩ := checkLevel_eq_ok.1 passed
  obtain ⟨opened, found, run⟩ := (SaveFile.onlyReads_openLevel _ _).bind_eq_ok.1 run
  obtain ⟨file, replaced, run⟩ := outcome_settle_bind_eq_ok.1 run
  refine ⟨opened, found, .inr ⟨_, file, ⟨text, input, closed, rfl⟩, ?_, ?_⟩⟩
  · have set := SaveFile.wrap_eq_ok.1 replaced
    cases append <;> exact set
  · cases run
    rfl

/-- Some object of a level carries a marker. -/
def HasMarked (marker : UInt32) (level : String) : Prop :=
  ∃ segment ∈ Level.segments level.toList, Level.isMarked .builtin marker segment = true

theorem removed_strip_eq_zero {marker : UInt32} {level : String} :
    (Level.strip .builtin marker level).removed = 0 ↔ ¬HasMarked marker level := by
  rw [Level.strip_eq, List.length_eq_zero_iff, List.filter_eq_nil_iff, HasMarked]
  simp only [not_exists, not_and]

/-- A level is kept if nothing in it is marked, and otherwise loses what is. -/
theorem isCareful_clean (marker : Option UInt32) (disk : Disk) :
    IsCareful request.directory (wantedLevel request level)
      (fun opened => ¬HasMarked (marker.getD request.settings.marker) opened.data.level)
      (fun opened new => HasMarked (marker.getD request.settings.marker) opened.data.level ∧
        new = (Level.strip .builtin (marker.getD request.settings.marker) opened.data.level).level)
      disk (clean request level marker) := by
  rw [clean_eq_plan]
  refine isCareful_of_plan (onlyReads_cleanPlan request level marker) fun changed answer run => ?_
  obtain ⟨opened, found, run⟩ := (SaveFile.onlyReads_openLevel _ _).bind_eq_ok.1 run
  refine ⟨opened, found, ?_⟩
  dsimp only at run
  split at run
  · rename_i unmarked
    cases run
    exact .inl ⟨removed_strip_eq_zero.1 unmarked, rfl⟩
  · rename_i marked
    obtain ⟨file, replaced, run⟩ := outcome_settle_bind_eq_ok.1 run
    cases run
    exact .inr ⟨_, file, ⟨not_not.1 fun none => marked (removed_strip_eq_zero.2 none), rfl⟩,
      SaveFile.wrap_eq_ok.1 replaced, rfl⟩

/-- Cleaning a level with nothing marked succeeds and leaves the disk as it was. -/
theorem outcome_clean_of_not_hasMarked {marker : Option UInt32} {disk : Disk} {opened : SaveFile}
    (found : disk.outcome (SaveFile.openLevel request.directory (wantedLevel request level)) =
      (.ok opened, disk))
    (unmarked : ¬HasMarked (marker.getD request.settings.marker) opened.data.level) :
    ∃ answer, disk.outcome (clean request level marker) = (.ok answer, disk) := by
  rw [clean, outcome_bind_of_ok found]
  dsimp only
  rw [if_pos (removed_strip_eq_zero.2 unmarked)]
  exact ⟨_, rfl⟩

end Plans

/-! ## Gathering a request -/

/-- The settings that a command line names, or else those of the working directory. -/
def namedSettings (arguments : Arguments) : ExceptT Failure (StateM Disk) Settings :=
  match arguments.settings with
  | some path => Settings.load path
  | none => Settings.loadFrom "."

/-- The directory that a command line names, or else the one that the settings lead to. -/
def namedDirectory (surroundings : Surroundings) (arguments : Arguments) (settings : Settings) :
    ExceptT Failure (StateM Disk) SaveDirectory :=
  match arguments.saveDirectory with
  | some path => pure ⟨path⟩
  | none => ExceptT.lift (settings.directory surroundings)

/-- What a command works on. -/
def gather (surroundings : Surroundings) (input : List UInt8) (arguments : Arguments) :
    ExceptT Failure (StateM Disk) Request := do
  let settings ← namedSettings arguments
  let directory ← namedDirectory surroundings arguments settings
  return ⟨settings, directory, input⟩

section Gather

variable (surroundings : Surroundings) (input : List UInt8) (arguments : Arguments)

theorem execute_eq_gather :
    execute surroundings input arguments =
      gather surroundings input arguments >>= fun request => perform request arguments.action := by
  obtain ⟨saveDirectory, settings, action⟩ := arguments
  simp only [gather, bind_assoc, pure_bind]
  cases settings <;> cases saveDirectory <;> rfl

theorem onlyReads_gather : OnlyReads (gather surroundings input arguments) := by
  refine .bind ?_ fun settings => .bind ?_ fun directory _ => rfl
  · unfold namedSettings
    split
    · exact Settings.onlyReads_load _
    · exact Settings.onlyReads_loadFrom _
  · unfold namedDirectory
    split
    · exact fun _ => rfl
    · exact Settings.onlyReads_directory settings surroundings

/-- A command fails before it is performed, on the disk as it was, or ends as it does for the
request that was gathered from this disk. -/
theorem outcome_execute (disk : Disk) :
    (∃ failure, disk.outcome (execute surroundings input arguments) = (.error failure, disk)) ∨
      ∃ request, disk.outcome (gather surroundings input arguments) = (.ok request, disk) ∧
        disk.outcome (execute surroundings input arguments) =
          disk.outcome (perform request arguments.action) := by
  rw [execute_eq_gather]
  have ended := (onlyReads_gather surroundings input arguments).outcome_eq disk
  cases result : (disk.outcome (gather surroundings input arguments)).1 with
  | error failure =>
      rw [result] at ended
      exact .inl ⟨failure, outcome_bind_of_error ended⟩
  | ok request =>
      rw [result] at ended
      exact .inr ⟨request, ended, outcome_bind_of_ok ended⟩

end Gather

/-- Exports and edits that fail other than in a write leave the disk as it was, as cleaning does
where nothing is marked; after every other success both files record the changed document, and the
level opens as what it became. -/
theorem failed_edits_leave_files_alone (disk : Disk) :
    (∀ compiler directory options,
      IsCareful directory options.level (fun _ => False)
        (fun opened level => ∃ prepared, Export.prepare compiler options = .ok prepared ∧
          level = (Export.remaining options opened.data.level).level ++ prepared.2)
        disk (Export.run compiler directory options)) ∧
    (∀ request level file,
      IsCareful request.directory (wantedLevel request level) (fun _ => False)
        (fun _ new => ∃ text, disk.outcome (readInput request file) = (.ok text, disk) ∧
          ((trimmed text).toList = [] ∨ (trimmed text).toList.getLast? = some ';') ∧
          new = trimmed text)
        disk (perform request (.set level file))) ∧
    (∀ request level file,
      IsCareful request.directory (wantedLevel request level) (fun _ => False)
        (fun opened new => ∃ text, disk.outcome (readInput request file) = (.ok text, disk) ∧
          ((trimmed text).toList = [] ∨ (trimmed text).toList.getLast? = some ';') ∧
          new = opened.data.level ++ trimmed text)
        disk (perform request (.append level file))) ∧
    (∀ request level marker,
      IsCareful request.directory (wantedLevel request level)
        (fun opened => ¬HasMarked (marker.getD request.settings.marker) opened.data.level)
        (fun opened new => HasMarked (marker.getD request.settings.marker) opened.data.level ∧
          new = (Level.strip .builtin (marker.getD request.settings.marker)
            opened.data.level).level)
        disk (perform request (.clean level marker))) ∧
    (∀ request level marker opened,
      disk.outcome (SaveFile.openLevel request.directory (wantedLevel request level)) =
        (.ok opened, disk) →
      ¬HasMarked (marker.getD request.settings.marker) opened.data.level →
      ∃ answer, disk.outcome (perform request (.clean level marker)) = (.ok answer, disk)) ∧
    ∀ surroundings input arguments,
      (∃ failure, disk.outcome (execute surroundings input arguments) = (.error failure, disk)) ∨
        ∃ request, disk.outcome (gather surroundings input arguments) = (.ok request, disk) ∧
          disk.outcome (execute surroundings input arguments) =
            disk.outcome (perform request arguments.action) :=
  ⟨fun compiler directory options => Export.isCareful_run compiler directory options disk,
    fun request level file => isCareful_writeLevel request level file false disk,
    fun request level file => isCareful_writeLevel request level file true disk,
    fun request level marker => isCareful_clean request level marker disk,
    fun request level _ _ found unmarked => outcome_clean_of_not_hasMarked request level found
      unmarked,
    fun surroundings input arguments => outcome_execute surroundings input arguments disk⟩

/-- A save file of one empty level. -/
def emptyLevel : SaveFile := ⟨⟨"/saves"⟩, SaveFile.oneLevel none, [0, 0], ⟨"A", "", ""⟩⟩

/-- The text of this save file on a disk. -/
def emptyLevelDisk : Disk := .holding "<d><d><k>k2</k><s>A</s></d></d>"

theorem outcome_openLevel_emptyLevelDisk :
    emptyLevelDisk.outcome (SaveFile.openLevel ⟨"/saves"⟩ none) =
      (.ok emptyLevel, emptyLevelDisk) := by
  have opened : SaveFile.ofText ⟨"/saves"⟩ "<d><d><k>k2</k><s>A</s></d></d>" none =
      .ok emptyLevel := by decide +kernel
  rw [emptyLevelDisk, outcome_openLevel_holding, opened]

theorem isReadBack_emptyLevel : emptyLevel.IsReadBack "a;" := by
  have document : (emptyLevel.withLevel "a;").document =
      SaveFile.oneLevel (some "H4sIAAAAAAAA_0u0BgA9oTSMAgAAAA==") := by decide +kernel
  exact SaveFile.isReadBack_of_eq document (by decide +kernel)

/-- A request that gives a command some input for the save file. -/
def emptyLevelRequest (input : List UInt8) : Request := ⟨.standard, ⟨"/saves"⟩, input⟩

theorem outcome_set_emptyLevel :
    ∃ answer after,
      emptyLevelDisk.outcome (perform (emptyLevelRequest [97, 59]) (.set none "-")) =
        (.ok answer, after) := by
  have replaced : emptyLevel.set "a;" = .ok (emptyLevel.withLevel "a;") :=
    SaveFile.set_eq rfl "a;"
  have input : emptyLevelDisk.outcome (readInput (emptyLevelRequest [97, 59]) "-") =
      (.ok "a;", emptyLevelDisk) := rfl
  have checked : emptyLevelDisk.outcome (Failure.settle (checkLevel (trimmed "a;"))) =
      (.ok "a;", emptyLevelDisk) := rfl
  have settled : emptyLevelDisk.outcome (Failure.settle
      (Failure.wrap [] .save (emptyLevel.set "a;"))) =
      (.ok (emptyLevel.withLevel "a;"), emptyLevelDisk) := by
    rw [replaced]
    rfl
  have place : (emptyLevel.withLevel "a;").directory = ⟨"/saves"⟩ := rfl
  obtain ⟨after, saved⟩ := exists_save_holding place _
  exact ⟨_, after, (outcome_bind_of_ok input).trans <| (outcome_bind_of_ok checked).trans <|
    (outcome_bind_of_ok outcome_openLevel_emptyLevelDisk).trans <|
    (outcome_bind_of_ok settled).trans <| outcome_bind_of_ok saved⟩

/-- An open text is refused, a closed one is recorded in both files and read again, and there is
nothing to clean. -/
theorem one_level_left_alone_or_recorded :
    emptyLevelDisk.outcome (SaveFile.openLevel ⟨"/saves"⟩ none) =
        (.ok emptyLevel, emptyLevelDisk) ∧
      (∃ failure, emptyLevelDisk.outcome (perform (emptyLevelRequest [97]) (.set none "-")) =
        (.error failure, emptyLevelDisk)) ∧
      (∃ answer after reopened,
        emptyLevelDisk.outcome (perform (emptyLevelRequest [97, 59]) (.set none "-")) =
          (.ok answer, after) ∧
        after.Records ⟨"/saves"⟩ (SaveFile.withPayload (SaveFile.oneLevel none) [0, 0]
          (Level.toPayload "a;")) ∧
        after.outcome (SaveFile.openLevel ⟨"/saves"⟩ none) = (.ok reopened, after) ∧
        reopened.data.level = "a;" ∧ reopened.data.name = "A") ∧
      ∃ answer, emptyLevelDisk.outcome (perform (emptyLevelRequest []) (.clean none none)) =
        (.ok answer, emptyLevelDisk) := by
  obtain ⟨-, sets, -, -, cleans, -⟩ := failed_edits_leave_files_alone emptyLevelDisk
  have found := outcome_openLevel_emptyLevelDisk
  refine ⟨found, ?_, ?_, ?_⟩
  · have refused : (emptyLevelDisk.outcome
        (perform (emptyLevelRequest [97]) (.set none "-"))).1 =
        .error ⟨[], .refusal notLevel⟩ := rfl
    have still := (sets (emptyLevelRequest [97]) none "-").failed _ _ (Prod.ext refused rfl)
      (by rintro ⟨_, _, _, _, _, _, ⟨⟩⟩)
    exact ⟨_, Prod.ext refused still⟩
  · obtain ⟨answer, after, run⟩ := outcome_set_emptyLevel
    obtain ⟨opened, again, ⟨⟨⟩, -⟩ | ⟨level, ⟨read, input, -, rfl⟩, records, reopens⟩⟩ :=
      (sets (emptyLevelRequest [97, 59]) none "-").done answer after run
    obtain rfl : emptyLevel = opened := Except.ok.inj (Prod.mk.inj (found.symm.trans again)).1
    obtain rfl : "a;" = read := Except.ok.inj (Prod.mk.inj input).1
    obtain ⟨reopened, opens, level, name, -⟩ :=
      reopens (by decide +kernel) isReadBack_emptyLevel
    exact ⟨answer, after, reopened, run, records, opens, level, name⟩
  · exact cleans (emptyLevelRequest []) none none emptyLevel found (by rintro ⟨_, ⟨⟩, _⟩)

end Command
end TriggerGraph
