import Mathlib.Tactic.SplitIfs
import TriggerGraph.Proofs.Envelopes

/-!
# Files that were written can be read

Writing a file replaces no directory, so every path that leads somewhere still leads there, and what
could be written can be written again. What was written is read back, and goes on being read back
while only the same bytes are written elsewhere. A save is forgotten once another one is made.
-/

namespace TriggerGraph.Disk

theorem lookup_filter_of_ne {names other : List String} (ne : other ≠ names)
    (entries : List (List String × DiskEntry)) :
    (entries.filter (·.1 != names)).lookup other = entries.lookup other := by
  induction entries with
  | nil => rfl
  | cons entry entries ih =>
      obtain ⟨place, content⟩ := entry
      by_cases same : place = names
      · have apart : (other == place) = false := by simpa [same] using ne
        rw [List.filter_cons_of_neg (by simpa using same), List.lookup_cons, apart, ih]
      · rw [List.filter_cons_of_pos (by simpa using same), List.lookup_cons, List.lookup_cons, ih]

theorem get?_put_self (disk : Disk) {names : List String} (nonempty : names ≠ [])
    (entry : DiskEntry) : (disk.put names entry).get? names = some entry := by
  simp [get?, put, nonempty]

theorem get?_put_of_ne (disk : Disk) {names other : List String} (ne : other ≠ names)
    (entry : DiskEntry) : (disk.put names entry).get? other = disk.get? other := by
  have apart : (other == names) = false := by simpa using ne
  simp [get?, put, List.lookup_cons, apart, lookup_filter_of_ne ne]

/-- What is put in two places is forgotten when something else is put there. -/
theorem put_both_again (disk : Disk) (first second : List String) (old new : DiskEntry) :
    (((disk.put first old).put second old).put first new).put second new =
      (disk.put first new).put second new := by
  by_cases same : first = second
  · subst same
    simp [put, List.filter_filter]
  · have apart : (first != second) = true := by simpa using same
    have apart' : (second != first) = true := by simpa using Ne.symm same
    simp only [put, List.filter_filter, List.filter_cons, apart, apart', bne_self_eq_false,
      if_true, Bool.false_eq_true, if_false]
    refine congrArg (Disk.mk _) (congrArg _ (congrArg _ (List.filter_congr fun entry _ => ?_)))
    cases entry.1 != second <;> simp

/-! ## Directories -/

/-- Two disks have their directories in the same places. -/
structure SameDirectories (disk other : Disk) : Prop where
  working : other.working = disk.working
  directory : ∀ names, other.get? names = some .directory ↔ disk.get? names = some .directory

theorem ne_nil_of_free {disk : Disk} {names : List String}
    (free : disk.get? names ≠ some .directory) : names ≠ [] := by
  rintro rfl
  exact free rfl

theorem sameDirectories_put {disk : Disk} {names : List String}
    (free : disk.get? names ≠ some .directory) (bytes : List UInt8) :
    disk.SameDirectories (disk.put names (.file bytes)) where
  working := rfl
  directory place := by
    by_cases same : place = names
    · subst same
      simp [get?_put_self disk (ne_nil_of_free free), free]
    · rw [get?_put_of_ne disk same]

namespace SameDirectories

variable {disk other : Disk} (same : disk.SameDirectories other)
include same

theorem symm : other.SameDirectories disk :=
  ⟨same.working.symm, fun names => (same.directory names).symm⟩

theorem trans {third : Disk} (onwards : other.SameDirectories third) :
    disk.SameDirectories third :=
  ⟨onwards.working.trans same.working,
    fun names => (onwards.directory names).trans (same.directory names)⟩

/-- Paths lead through directories only. -/
theorem follow {place path target : List String} (led : disk.follow place path = .ok target) :
    other.follow place path = .ok target := by
  induction path generalizing place with
  | nil => exact led
  | cons name path ih =>
      rw [Disk.follow] at led ⊢
      cases here : disk.get? place with
      | none => rw [here] at led; cases led
      | some entry =>
          cases entry with
          | file _ => rw [here] at led; cases led
          | directory =>
              rw [here] at led
              rw [(same.directory place).2 here]
              dsimp only at led ⊢
              split_ifs at led ⊢
              · exact ih led
              · exact ih led
              · exact ih led

theorem resolve {path : String} {target : List String} (led : disk.resolve path = .ok target) :
    other.resolve path = .ok target := by
  unfold Disk.resolve at led ⊢
  cases checked : checkPath path with
  | error fault =>
      rw [checked] at led
      cases led
  | ok _ =>
      rw [checked] at led
      simp only [bind, Except.bind] at led ⊢
      split at led
      · cases led
      · exact same.follow led
      · rw [same.working]
        exact same.follow led

end SameDirectories

/-! ## Contents -/

theorem write_eq_ok {disk after : Disk} {path : String} {bytes : List UInt8} :
    disk.write path bytes = .ok after ↔
      ∃ names, disk.resolve path = .ok names ∧ disk.get? names ≠ some .directory ∧
        disk.get? names.dropLast = some .directory ∧ after = disk.put names (.file bytes) := by
  unfold write
  cases led : disk.resolve path with
  | error fault => simp [bind, Except.bind]
  | ok names =>
      simp only [bind, Except.bind, pure, Except.pure, Except.ok.injEq, exists_eq_left']
      cases here : disk.get? names with
      | none =>
          rcases above : disk.get? names.dropLast with _ | ⟨_ | _⟩ <;>
            simp [throw, throwThe, MonadExceptOf.throw, eq_comm]
      | some entry =>
          rcases above : disk.get? names.dropLast with _ | ⟨_ | _⟩ <;> cases entry <;>
            simp [throw, throwThe, MonadExceptOf.throw, eq_comm]

/-- A write puts its bytes in one place, and in the same place on every disk with the same
directories. -/
theorem exists_place_of_write {disk after : Disk} {path : String} {bytes : List UInt8}
    (written : disk.write path bytes = .ok after) :
    ∃ names, after = disk.put names (.file bytes) ∧ disk.SameDirectories after ∧
      ∀ (other : Disk) (more : List UInt8), disk.SameDirectories other →
        other.write path more = .ok (other.put names (.file more)) := by
  obtain ⟨names, led, free, inside, rfl⟩ := write_eq_ok.1 written
  refine ⟨names, rfl, sameDirectories_put free bytes, fun other more same => ?_⟩
  exact write_eq_ok.2 ⟨names, same.resolve led, fun taken => free ((same.directory names).1 taken),
    (same.directory _).2 inside, rfl⟩

theorem read_eq {disk : Disk} {path : String} {bytes : List UInt8} :
    disk.read path = .ok bytes ↔
      ∃ names, disk.resolve path = .ok names ∧ disk.get? names = some (.file bytes) := by
  unfold read look
  cases led : disk.resolve path with
  | error fault => simp [bind, Except.bind]
  | ok names =>
      cases here : disk.get? names with
      | none => simp [bind, Except.bind, here, throw, throwThe, MonadExceptOf.throw]
      | some entry =>
          cases entry <;>
            simp [bind, Except.bind, pure, Except.pure, here, throw, throwThe, MonadExceptOf.throw]

/-- What was written is read. -/
theorem read_of_write {disk after : Disk} {path : String} {bytes : List UInt8}
    (written : disk.write path bytes = .ok after) : after.read path = .ok bytes := by
  obtain ⟨names, led, free, -, rfl⟩ := write_eq_ok.1 written
  exact read_eq.2 ⟨names, (sameDirectories_put free bytes).resolve led,
    get?_put_self disk (ne_nil_of_free free) _⟩

/-- The same bytes written to any path change nothing about a file that holds them. -/
theorem read_of_write_again {disk after : Disk} {path other : String} {bytes : List UInt8}
    (held : disk.read path = .ok bytes) (written : disk.write other bytes = .ok after) :
    after.read path = .ok bytes := by
  obtain ⟨names, led, here⟩ := read_eq.1 held
  obtain ⟨names', -, free, -, rfl⟩ := write_eq_ok.1 written
  refine read_eq.2 ⟨names, (sameDirectories_put free bytes).resolve led, ?_⟩
  by_cases same : names = names'
  · subst same
    exact get?_put_self disk (ne_nil_of_free free) _
  · rw [get?_put_of_ne disk same, here]

end TriggerGraph.Disk

namespace TriggerGraph

/-! ## Actions on a disk -/

namespace Disk

variable {α β : Type}

/-- How an action on files ends: its result, and the disk that it leaves. -/
def outcome (disk : Disk) (action : ExceptT Failure (StateM Disk) α) : Except Failure α × Disk :=
  action.run.run disk

theorem outcome_settle (disk : Disk) (result : Except Failure α) :
    disk.outcome (Failure.settle result) = (result, disk) :=
  rfl

section Bind

variable {disk middle : Disk} {first : ExceptT Failure (StateM Disk) α}
  {next : α → ExceptT Failure (StateM Disk) β}

theorem outcome_bind_of_ok {value : α} (ended : disk.outcome first = (.ok value, middle)) :
    disk.outcome (first >>= next) = middle.outcome (next value) := by
  unfold outcome at ended ⊢
  rw [ExceptT.run_bind, StateT.run_bind, ended]
  rfl

theorem outcome_bind_of_error {failure : Failure}
    (ended : disk.outcome first = (.error failure, middle)) :
    disk.outcome (first >>= next) = (.error failure, middle) := by
  unfold outcome at ended ⊢
  rw [ExceptT.run_bind, StateT.run_bind, ended]
  rfl

end Bind

theorem outcome_bind_pure_eq_ok {disk after : Disk} {action : ExceptT Failure (StateM Disk) Unit}
    {value result : α} :
    disk.outcome (action >>= fun _ => pure value) = (.ok result, after) ↔
      disk.outcome action = (.ok (), after) ∧ result = value := by
  rcases ended : disk.outcome action with ⟨failure | ⟨⟩, middle⟩
  · rw [outcome_bind_of_error ended]
    simp
  · rw [outcome_bind_of_ok ended]
    change ((.ok value, middle) : Except Failure α × Disk) = _ ↔ _
    simp [eq_comm, and_comm]

/-- An action leaves every disk as it was. -/
def OnlyReads (action : ExceptT Failure (StateM Disk) α) : Prop :=
  ∀ disk : Disk, (disk.outcome action).2 = disk

namespace OnlyReads

variable {first : ExceptT Failure (StateM Disk) α} {next : α → ExceptT Failure (StateM Disk) β}

theorem outcome_eq (reads : OnlyReads first) (disk : Disk) :
    disk.outcome first = ((disk.outcome first).1, disk) :=
  Prod.ext rfl (reads disk)

theorem settle (result : Except Failure α) : OnlyReads (Failure.settle result) := fun _ => rfl

theorem bind (reads : OnlyReads first) (rest : ∀ value, OnlyReads (next value)) :
    OnlyReads (first >>= next) := by
  intro disk
  have ended := reads.outcome_eq disk
  cases result : (disk.outcome first).1 with
  | error failure =>
      rw [result] at ended
      rw [outcome_bind_of_error ended]
  | ok value =>
      rw [result] at ended
      rw [outcome_bind_of_ok ended]
      exact rest value disk

theorem lift {action : StateM Disk α}
    (still : ∀ disk, ∃ value, action.run disk = (value, disk)) :
    OnlyReads (ExceptT.lift action) := by
  intro disk
  obtain ⟨value, run⟩ := still disk
  rw [outcome, ExceptT.run_lift, StateT.run_map, run]
  rfl

/-- An action that only reads hands on to the next what it found on the same disk. -/
theorem bind_eq_ok (reads : OnlyReads first) {disk after : Disk} {value : β} :
    disk.outcome (first >>= next) = (.ok value, after) ↔
      ∃ found, disk.outcome first = (.ok found, disk) ∧
        disk.outcome (next found) = (.ok value, after) := by
  have ended := reads.outcome_eq disk
  cases result : (disk.outcome first).1 with
  | error failure =>
      rw [result] at ended
      rw [outcome_bind_of_error ended, ended]
      simp
  | ok found =>
      rw [result] at ended
      rw [outcome_bind_of_ok ended, ended]
      simp

end OnlyReads

theorem outcome_settle_bind_eq_ok {disk after : Disk} {result : Except Failure α} {value : β}
    {next : α → ExceptT Failure (StateM Disk) β} :
    disk.outcome (Failure.settle result >>= next) = (.ok value, after) ↔
      ∃ found, result = .ok found ∧ disk.outcome (next found) = (.ok value, after) := by
  rw [(OnlyReads.settle result).bind_eq_ok]
  simp only [outcome_settle, Prod.mk.injEq, and_true]

end Disk


/-- Both files hold the same bytes, which decrypt to the text of a document. -/
def Disk.Records (disk : Disk) (directory : SaveDirectory) (document : Markup.Document) : Prop :=
  ∃ bytes, disk.read directory.primary = .ok bytes ∧ disk.read directory.backup = .ok bytes ∧
    Container.decrypt bytes = .ok document.write

namespace SaveFile

open Disk

/-! ## Save files on a disk -/

theorem outcome_writeTo (path : String) (bytes : List UInt8) (disk : Disk) :
    disk.outcome (writeTo path bytes) =
      match disk.write path bytes with
      | .ok after => (.ok (), after)
      | .error fault => (.error ⟨["writing save file " ++ path], .file fault⟩, disk) := by
  cases written : disk.write path bytes <;>
    simp [outcome, writeTo, Failure.ofFiles, FileSystem.write, written, Failure.wrap] <;> rfl

theorem outcome_writeTo_of_ok {disk after : Disk} {path : String} {bytes : List UInt8}
    (written : disk.write path bytes = .ok after) :
    disk.outcome (writeTo path bytes) = (.ok (), after) := by
  rw [outcome_writeTo, written]

theorem outcome_writeTo_of_error {disk : Disk} {path : String} {bytes : List UInt8}
    {fault : FileFault} (refused : disk.write path bytes = .error fault) :
    disk.outcome (writeTo path bytes) =
      (.error ⟨["writing save file " ++ path], .file fault⟩, disk) := by
  rw [outcome_writeTo, refused]

/-- A save is a write to the primary file and one to the backup. -/
theorem outcome_save_eq_ok {file : SaveFile} {disk after : Disk} :
    disk.outcome file.save = (.ok (), after) ↔
      ∃ middle, disk.write file.directory.primary (Container.encrypt file.document.write) =
          .ok middle ∧
        middle.write file.directory.backup (Container.encrypt file.document.write) = .ok after := by
  unfold save
  cases first : disk.write file.directory.primary (Container.encrypt file.document.write) with
  | error fault =>
      rw [outcome_bind_of_error (outcome_writeTo_of_error first)]
      simp
  | ok middle =>
      rw [outcome_bind_of_ok (outcome_writeTo_of_ok first), outcome_writeTo]
      cases second : middle.write file.directory.backup
          (Container.encrypt file.document.write) with
      | error fault => simp [second]
      | ok last => simp [second]

theorem records_of_save {file : SaveFile} {disk after : Disk}
    (saved : disk.outcome file.save = (.ok (), after)) :
    after.Records file.directory file.document := by
  obtain ⟨middle, first, second⟩ := outcome_save_eq_ok.1 saved
  exact ⟨_, read_of_write_again (read_of_write first) second, read_of_write second,
    Container.decrypt_encrypt _⟩

/-- After a save, another one in the same directory succeeds and leaves nothing of it. -/
theorem save_forgets {earlier later : SaveFile} {disk between : Disk}
    (place : later.directory = earlier.directory)
    (saved : disk.outcome earlier.save = (.ok (), between)) :
    ∃ after, disk.outcome later.save = (.ok (), after) ∧
      between.outcome later.save = (.ok (), after) := by
  obtain ⟨middle, first, second⟩ := outcome_save_eq_ok.1 saved
  obtain ⟨primary, rfl, toMiddle, onPrimary⟩ := exists_place_of_write first
  obtain ⟨backup, rfl, toBetween, onBackup⟩ := exists_place_of_write second
  have saves (other : Disk) (same : disk.SameDirectories other) :
      other.outcome later.save = (.ok (),
        (other.put primary (.file (Container.encrypt later.document.write))).put backup
          (.file (Container.encrypt later.document.write))) := by
    have written := onPrimary other (Container.encrypt later.document.write) same
    obtain ⟨-, -, onwards, -⟩ := exists_place_of_write written
    rw [outcome_save_eq_ok, place]
    exact ⟨_, written, onBackup _ _ (toMiddle.symm.trans (same.trans onwards))⟩
  refine ⟨_, saves disk ⟨rfl, fun _ => Iff.rfl⟩, ?_⟩
  rw [saves _ (toMiddle.trans toBetween), put_both_again]

section Read

variable {directory : SaveDirectory} {disk : Disk} {bytes : List UInt8} {text : String}
  (held : disk.read directory.primary = .ok bytes) (decrypted : Container.decrypt bytes = .ok text)
include held

theorem outcome_readPrimary : disk.outcome (readPrimary directory) = (.ok bytes, disk) := by
  change (Failure.wrap _ _ (disk.read directory.primary), disk) = _
  rw [held]
  rfl

include decrypted

/-- A level is opened from the text in the primary file. -/
theorem outcome_openLevel (wanted : Option String) :
    disk.outcome (openLevel directory wanted) = (ofText directory text wanted, disk) := by
  rw [openLevel, outcome_bind_of_ok (outcome_readPrimary held), outcome_settle, decrypted]
  rfl

/-- The levels are named by the document in the primary file. -/
theorem outcome_levelNames {document : Markup.Document} (read : readDocument text = .ok document) :
    disk.outcome (levelNames directory) = (.ok (namesIn document), disk) := by
  rw [levelNames, outcome_bind_of_ok (outcome_readPrimary held), outcome_settle, decrypted]
  simp only [Failure.wrap, read, bind, Except.bind]
  rfl

end Read

end SaveFile
end TriggerGraph
