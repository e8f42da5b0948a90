import TriggerGraph.Proofs.Allocation
import TriggerGraph.Proofs.Edits

/-!
# The marker stays out of a script

A marker that is reserved at the start is stepped over by every later search for a group, so it is
neither given to a context nor handed to the script, however the script goes on and wherever it
fails.  An export with the settings that the compilation was started with is therefore never refused
for its marker.
-/

namespace TriggerGraph

/-! ## Withheld ids -/

namespace Pool

/-- An id is reserved, and if the search has come past it then it was stepped over. -/
structure Withholds (pool : Pool) (id : UInt32) : Prop where
  reserved : id ∈ pool.reserved
  passed : id ≠ 0 → id ≤ pool.last → id ∈ pool.skipped

namespace Withholds

variable {pool : Pool} {id : UInt32}

/-- The next search does not find a withheld id, and leaves it withheld. -/
theorem next (withheld : pool.Withholds id) (room : pool.last.toNat < limit)
    (fits : pool.next.2.Fits) : pool.next.1 ≠ id ∧ pool.next.2.Withholds id := by
  obtain ⟨rounds, -, search⟩ := search_next room fits
  obtain ⟨-, free, -, crossed⟩ := search.spec room fits.2
  have other : pool.next.1 ≠ id := fun same => free (same ▸ withheld.reserved)
  refine ⟨other, withheld.reserved, fun nonzero below => (crossed id).2 ?_⟩
  have raised : pool.next.2.last = pool.next.1 := rfl
  rw [raised] at below
  by_cases earlier : id ≤ pool.last
  · exact .inl (withheld.passed nonzero earlier)
  · refine .inr ⟨UInt32.not_le.1 earlier, ?_⟩
    exact UInt32.lt_of_le_of_ne below other.symm

theorem isIssued_eq_false (withheld : pool.Withholds id) : pool.isIssued id = false := by
  by_contra issued
  simp only [isIssued, Bool.not_eq_false, Bool.and_eq_true, bne_iff_ne, decide_eq_true_eq,
    Bool.not_eq_true', List.contains_eq_mem, decide_eq_false_iff_not] at issued
  exact issued.2 (withheld.passed issued.1.1 issued.1.2)

end Withholds
end Pool

/-! ## Along a run -/

namespace Run

/-- A group is withheld, no context owns it, and the script was not given it. -/
structure Spares (run : Run) (marker : UInt32) : Prop where
  withheld : run.compiler.ids.groups.Withholds marker
  owned : ∀ context ∈ run.compiler.contexts, context.group.value ≠ marker
  drawn : marker ∉ run.drawnGroups

theorem Allocated.fits_groups {run : Run} (allocated : run.Allocated) (fits : run.GroupsFit) :
    run.compiler.ids.groups.Fits :=
  ⟨allocated.room, fun id skipped => fits id (by simp [passedGroups, skipped])⟩

namespace Spares

variable {before after : Run} {marker : UInt32}

theorem of_quiet (spares : before.Spares marker) (quiet : Quiet before after) :
    after.Spares marker := by
  refine ⟨⟨quiet.reserved spares.withheld.reserved, ?_⟩, fun context member => ?_, ?_⟩
  · rw [quiet.last, quiet.skipped]
    exact spares.withheld.passed
  · obtain ⟨objects, old⟩ := quiet.mem_contexts member
    have held := spares.owned _ old
    exact held
  · rw [quiet.drawn]
    exact spares.drawn

/-- A spared group survives every elementary change. -/
theorem of_move (spares : before.Spares marker) (move : Move before after)
    (room : before.compiler.ids.groups.last.toNat < Pool.limit)
    (fits : after.compiler.ids.groups.Fits) : after.Spares marker := by
  rcases move.quiet_or with quiet | ⟨name, opened, next, opens, rfl⟩ | ⟨name, rfl⟩
  · exact spares.of_quiet quiet
  · rw [compiler_withCompiler, opens.ids] at fits
    obtain ⟨other, withheld⟩ := spares.withheld.next room fits
    refine ⟨?_, fun context member => ?_, spares.drawn⟩
    · rw [compiler_withCompiler, opens.ids]
      exact withheld
    · rw [compiler_withCompiler, opens.contexts] at member
      rcases List.mem_append.1 member with old | new
      · exact spares.owned context old
      · obtain rfl := List.mem_singleton.1 new
        rw [opens.group]
        exact other
  · rw [compiler_step_fresh] at fits
    obtain ⟨other, withheld⟩ := spares.withheld.next room fits
    refine ⟨?_, ?_, ?_⟩
    · rw [compiler_step_fresh]
      exact withheld
    · rw [compiler_step_fresh]
      exact spares.owned
    · rw [drawnGroups_step_fresh, List.mem_cons]
      exact not_or.2 ⟨other.symm, spares.drawn⟩

theorem isGroupInUse_eq_false {run : Run} (spares : run.Spares marker) :
    run.compiler.isGroupInUse marker = false := by
  have unowned := (Compiler.lookup_eq_none_iff run.compiler.owned).2 spares.owned
  rw [Compiler.isGroupInUse, Bool.or_eq_false_iff, unowned]
  exact ⟨spares.withheld.isIssued_eq_false, rfl⟩

end Spares

/-- A marker other than the global group is spared from the start. -/
theorem spares_start {options : CompilerOptions} {marker : UInt32}
    (kept : options.markerGroup = some marker) (apart : marker ≠ 1) (names : Nat → String) :
    (start (.start options names)).Spares marker := by
  refine ⟨⟨?_, fun nonzero below => ?_⟩, fun context member => ?_, List.not_mem_nil⟩
  · change marker ∈ (Compiler.startIds options).groups.reserved
    rw [Compiler.startIds, kept]
    exact List.mem_insert_self
  · change marker ≤ (Compiler.startIds options).groups.last at below
    rw [(Compiler.groups_startIds options).1, UInt32.le_iff_toNat_le] at below
    exact absurd (UInt32.toNat_inj.1 (Nat.le_zero.1 below)) nonzero
  · rw [List.mem_singleton.1 member]
    exact apart.symm

theorem spares_of_reaches {options : CompilerOptions} {marker : UInt32} {names : Nat → String}
    {run : Run} (kept : options.markerGroup = some marker) (apart : marker ≠ 1)
    (reaches : (start (.start options names)).Reaches run) (fits : run.GroupsFit) :
    run.Spares marker := by
  induction reaches with
  | refl => exact spares_start kept apart names
  | tail reached move ih =>
      have earlier := fits.of_reaches (.single move)
      have room := (registered_of_reaches reached earlier).2.room
      have allocated := (registered_of_reaches (reached.tail move) fits).2
      exact (ih earlier).of_move move room (allocated.fits_groups fits)

end Run

/-! ## Refusals -/

/-- A result is no refusal of what was asked, though it may be a failure of another kind. -/
def Unrefused {α : Type} (result : Except Failure α) : Prop :=
  ∀ failure text, result = .error failure → failure.cause ≠ .refusal text

namespace Unrefused

variable {ε α β : Type}

theorem ok (value : α) : Unrefused (.ok value) := by
  intro failure text failed
  cases failed

theorem wrap {during : List String} {cause : ε → Cause}
    (other : ∀ error text, cause error ≠ .refusal text) (result : Except ε α) :
    Unrefused (Failure.wrap during cause result) := by
  intro failure text failed
  cases result with
  | ok value => cases failed
  | error error =>
      cases failed
      exact other error text

theorem bind {first : Except Failure α} {next : α → Except Failure β} (begun : Unrefused first)
    (rest : ∀ value, Unrefused (next value)) : Unrefused (first >>= next) := by
  cases first with
  | ok value => exact rest value
  | error earlier =>
      intro failure text failed
      cases failed
      exact begun earlier text rfl

end Unrefused

/-- An action ends in no refusal on any disk. -/
def NeverRefuses {α : Type} (action : ExceptT Failure (StateM Disk) α) : Prop :=
  ∀ disk : Disk, Unrefused (disk.outcome action).1

namespace NeverRefuses

variable {α β : Type}

theorem settle {result : Except Failure α} (unrefused : Unrefused result) :
    NeverRefuses (Failure.settle result) :=
  fun _ => unrefused

theorem ofFiles (during : List String) (action : StateM Disk (Except FileFault α)) :
    NeverRefuses (Failure.ofFiles during action) := by
  intro disk
  change Unrefused (Failure.wrap during .file (action.run disk).1)
  exact .wrap (by rintro _ _ ⟨⟩) _

theorem bind {first : ExceptT Failure (StateM Disk) α} {next : α → ExceptT Failure (StateM Disk) β}
    (begun : NeverRefuses first) (rest : ∀ value, NeverRefuses (next value)) :
    NeverRefuses (first >>= next) := by
  intro disk
  have earlier := begun disk
  rcases ended : disk.outcome first with ⟨_ | value, middle⟩
  · rw [ended] at earlier
    rw [Disk.outcome_bind_of_error ended]
    exact fun _ text failed => earlier _ text (congrArg _ (Except.error.inj failed))
  · rw [Disk.outcome_bind_of_ok ended]
    exact rest value middle

end NeverRefuses

theorem SaveFile.unrefused_ofText (directory : SaveDirectory) (text : String)
    (wanted : Option String) : Unrefused (ofText directory text wanted) :=
  .bind (.wrap (by rintro _ _ ⟨⟩) _) fun _ => .bind (.wrap (by rintro _ _ ⟨⟩) _) fun _ =>
    .bind (.wrap (by rintro _ _ ⟨⟩) _) fun _ => .bind (.wrap (by rintro _ _ ⟨⟩) _) fun _ =>
      .bind (.wrap (by rintro _ _ ⟨⟩) _) fun _ => .ok _

theorem SaveFile.neverRefuses_openLevel (directory : SaveDirectory) (wanted : Option String) :
    NeverRefuses (openLevel directory wanted) :=
  .bind (.ofFiles _ _) fun _ => .settle <|
    .bind (.wrap (by rintro _ _ ⟨⟩) _) fun text => unrefused_ofText directory text wanted

theorem SaveFile.neverRefuses_save (file : SaveFile) : NeverRefuses file.save :=
  .bind (.ofFiles _ _) fun _ => .ofFiles _ _

namespace Export

variable {compiler : Compiler} {options : ExportOptions}

/-- An export is refused only for a marker in use. -/
theorem neverRefuses_run {marked : List Object} (free : objects compiler options = .ok marked)
    (directory : SaveDirectory) : NeverRefuses (run compiler directory options) := by
  have prepared : Unrefused (prepare compiler options) := by
    rw [prepare, free]
    exact .bind (.ok marked) fun _ => .bind (.wrap (by rintro _ _ ⟨⟩) _) fun _ => .ok _
  refine .bind (.settle prepared) fun _ => .bind (SaveFile.neverRefuses_openLevel _ _) fun _ => ?_
  refine .bind (.settle (.bind (.wrap (by rintro _ _ ⟨⟩) _) fun _ => .ok _)) fun placed => ?_
  exact .bind (SaveFile.neverRefuses_save placed.1) fun _ => .settle (.ok placed.2)

end Export

/-- A marker in the settings is never used by a script that is compiled with them, so an export with
them marks every object and is not refused. -/
theorem marker_never_clashes (settings : Settings) (replaces : settings.replace = true)
    (apart : settings.marker ≠ 1) (names : Nat → String) (run : Run)
    (reached : (Run.start (.start settings.compilerOptions names)).Reaches run)
    (fits : run.GroupsFit) :
    (∀ context ∈ run.compiler.contexts, context.group.value ≠ settings.marker) ∧
    settings.marker ∉ run.drawnGroups ∧
    run.compiler.ids.isIssued .group settings.marker = false ∧
    run.compiler.isGroupInUse settings.marker = false ∧
    Export.objects run.compiler settings.exportOptions =
      .ok (run.compiler.flush.map (·.addGroup (.group settings.marker))) ∧
    ∀ (directory : SaveDirectory) (disk after : Disk) (failure : Failure),
      disk.outcome (Export.run run.compiler directory settings.exportOptions) =
        (.error failure, after) →
      failure.cause ≠ .refusal (Export.markerInUse settings.marker) := by
  have kept : settings.compilerOptions.markerGroup = some settings.marker := if_pos replaces
  have spares := Run.spares_of_reaches kept apart reached fits
  have unused := spares.isGroupInUse_eq_false
  have marked : Export.objects run.compiler settings.exportOptions =
      .ok (run.compiler.flush.map (·.addGroup (.group settings.marker))) := by
    rw [Export.objects, Settings.exportOptions, if_pos replaces, unused]
    rfl
  refine ⟨spares.owned, spares.drawn, spares.withheld.isIssued_eq_false, unused, marked, ?_⟩
  intro directory disk after failure ended
  exact Export.neverRefuses_run marked directory disk failure _ (congrArg Prod.fst ended)

/-- A script that reserves the marker and its neighbour, draws groups past them, and fails inside a
function and at the outermost level. -/
def Script.pastMarker : List Statement :=
  [.fresh .group none, .reserve .group 4 none, .reserve .group 3 none, .fresh .group none,
    .createContext "first" false none,
    .function none none [.wait .zero, .fresh .group none, .fail "stop"],
    .createContext "first" true none, .reserve .group 3 none, .fresh .group none]

/-- The third group is kept for marking. -/
def thirdMarks : Settings := ⟨none, none, true, 3, .zero⟩

/-- The run of the script with this marker. -/
def Run.pastMarker : Run :=
  (Run.start (.start thirdMarks.compilerOptions fun number =>
    String.ofList (.replicate number 'a'))).steps Script.pastMarker

/-- The groups on both sides of the marker are taken. -/
theorem marker_spared_past_it :
    Run.pastMarker.GroupsFit ∧ Run.pastMarker.drawnGroups = [10, 9, 5, 2] ∧
      (Run.pastMarker.compiler.contexts.map (·.group.value)) = [1, 6, 7, 8] ∧
      Run.pastMarker.compiler.isGroupInUse thirdMarks.marker = false ∧
      ∀ (directory : SaveDirectory) (disk after : Disk) (failure : Failure),
        disk.outcome (Export.run Run.pastMarker.compiler directory thirdMarks.exportOptions) =
          (.error failure, after) →
        failure.cause ≠ .refusal (Export.markerInUse thirdMarks.marker) := by
  have fits : Run.pastMarker.GroupsFit := by decide +kernel
  have reached := Run.reaches_steps (Run.start (.start thirdMarks.compilerOptions fun number =>
    String.ofList (.replicate number 'a'))) Script.pastMarker
  obtain ⟨-, -, -, unused, -, exports⟩ :=
    marker_never_clashes thirdMarks rfl (by decide) _ Run.pastMarker reached fits
  exact ⟨fits, by decide +kernel, by decide +kernel, unused, exports⟩

end TriggerGraph
