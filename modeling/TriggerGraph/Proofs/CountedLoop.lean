import Mathlib.Algebra.Order.Ring.Rat
import Mathlib.Data.List.Nodup
import Mathlib.Tactic.Ring
import TriggerGraph.Proofs.LoopLevel

/-!
# Counting loops in the game

Played by the rules of the game, a compiled counting loop runs its body once for each value of its
range, in order, and comes to rest.
-/

namespace TriggerGraph

/-! ## The values of a range -/

namespace LoopRange

/-- The value of the counter after a number of iterations. -/
def value (range : LoopRange) (number : ℕ) : ℤ := range.start.toInt + number * range.step.toInt

/-- Whether a value lies strictly before the end: below it if the loop counts up, above it if it
counts down. -/
def Before (range : LoopRange) (value : ℤ) : Prop :=
  if 0 < range.step.toInt then value < range.stop.toInt else range.stop.toInt < value

instance (range : LoopRange) (value : ℤ) : Decidable (range.Before value) :=
  inferInstanceAs (Decidable (if 0 < range.step.toInt then value < range.stop.toInt
    else range.stop.toInt < value))

/-- The numbers of a range are exact as doubles. -/
def Exact (range : LoopRange) : Prop :=
  ∀ number ∈ [range.start, range.stop, range.step], number.toInt.natAbs ≤ 2 ^ 53

/-- The items after a number of iterations, if all of them were zero at first. -/
def items (range : LoopRange) (item : UInt32) (number : ℕ) : UInt32 → ℚ :=
  Function.update (fun _ => 0) item (range.value number)

theorem value_succ (range : LoopRange) (number : ℕ) :
    range.value (number + 1) = range.value number + range.step.toInt := by
  simp only [value]
  push_cast
  ring

theorem step_pos_iff (range : LoopRange) : 0 < range.step ↔ 0 < range.step.toInt := by
  rw [Int64.lt_iff_toInt_lt]
  rfl

/-- A valid range moves, and towards its end. -/
theorem towards_of_check {range : LoopRange} (valid : range.check = .ok ()) :
    (0 < range.step.toInt ∧ range.start.toInt ≤ range.stop.toInt) ∨
      (range.step.toInt < 0 ∧ range.stop.toInt ≤ range.start.toInt) := by
  simp only [check] at valid
  split at valid
  · cases valid
  · rename_i moves
    split at valid
    · cases valid
    · rename_i towards
      have zero : (0 : Int64).toInt = 0 := rfl
      have nonzero : range.step.toInt ≠ 0 := fun still =>
        moves (Int64.toInt_inj.1 (still.trans zero.symm))
      simp only [leadsAway, Bool.or_eq_true, Bool.and_eq_true, decide_eq_true_eq,
        Int64.lt_iff_toInt_lt, zero] at towards
      omega

theorem lt_div_iff (gap number : ℕ) {stride : ℕ} (positive : 0 < stride) :
    number < (gap + stride - 1) / stride ↔ number * stride < gap := by
  rw [Nat.lt_div_iff_mul_lt positive]
  omega

/-- The values before the end are those of the first iterations. -/
theorem exists_count {range : LoopRange} (valid : range.check = .ok ()) :
    ∃ count : ℕ, ∀ number : ℕ, number < count ↔ range.Before (range.value number) := by
  rcases towards_of_check valid with ⟨up, least⟩ | ⟨down, greatest⟩
  · obtain ⟨gap, distance⟩ := Int.le.dest least
    obtain ⟨stride, same⟩ := Int.eq_ofNat_of_zero_le up.le
    refine ⟨(gap + stride - 1) / stride, fun number => ?_⟩
    rw [lt_div_iff gap number (by omega), Before, if_pos up, value, same, ← Nat.cast_mul]
    omega
  · obtain ⟨gap, distance⟩ := Int.le.dest greatest
    obtain ⟨stride, same⟩ := Int.eq_ofNat_of_zero_le (Int.neg_nonneg_of_nonpos down.le)
    refine ⟨(gap + stride - 1) / stride, fun number => ?_⟩
    have step : range.step.toInt = -stride := by omega
    rw [lt_div_iff gap number (by omega), Before, if_neg (by omega), value, step, Int.mul_neg,
      ← Nat.cast_mul]
    omega

theorem items_self (range : LoopRange) (item : UInt32) (number : ℕ) :
    range.items item number item = range.value number := by
  simp [items]

theorem update_items (range : LoopRange) (item : UInt32) (number : ℕ) :
    Function.update (range.items item number) item
      (range.items item number item + range.step.toInt) = range.items item (number + 1) := by
  rw [items_self, items, items, Function.update_idem, value_succ, Int.cast_add]

/-- The check compares the counter with the end on the side from which the loop comes. -/
theorem holds_condition (range : LoopRange) (counter : Counter) (value : ℤ) :
    (range.condition counter).comparator.holds value range.stop.toInt = true ↔
      range.Before value := by
  simp only [condition, Before, step_pos_iff]
  split <;> simp [Comparator.holds]

end LoopRange

/-! ## The contexts of a body -/

namespace Chained

variable {inner : Reference} {earlier : List Context} {last : Context}

theorem belongs (chained : Chained inner earlier last) :
    ∀ context ∈ earlier, ∀ object ∈ context.objects, object.Belongs := by
  induction chained with
  | first => simp
  | @next earlier last context seconds spawn chained _ isGroup spawned _ ih =>
      intro context member object within
      rcases List.mem_append.1 member with old | new
      · exact ih context old object within
      · obtain rfl := List.mem_singleton.1 new
        rcases List.mem_append.1 within with inert | spawns
        · exact .inl (chained.inert object inert)
        · obtain rfl := List.mem_singleton.1 spawns
          exact .inr (Trigger.get?_of_spawn isGroup spawned (by decide))

/-- The first context is that of the body's group. -/
theorem exists_head (chained : Chained inner earlier last) {ending : Context}
    (same : ending.group = last.group) :
    ∃ first rest, earlier ++ [ending] = first :: rest ∧ first.group = inner := by
  induction chained generalizing ending with
  | first group => exact ⟨ending, [], rfl, same.trans group⟩
  | @next earlier last _ _ object _ _ _ _ _ ih =>
      obtain ⟨first, rest, split, group⟩ :=
        ih (show { last with objects := last.objects ++ [object] }.group = last.group from rfl)
      exact ⟨first, rest ++ [ending], congrArg (· ++ [ending]) split, group⟩

end Chained

namespace Context

/-- The activation of a context's group. -/
def activation (items : UInt32 → ℚ) (context : Context) : Game.Activation :=
  ⟨context.group.value, items⟩

end Context

theorem Double.isNonnegative_of_isDelay {seconds : Double} (valid : seconds.isDelay = true) :
    seconds.isNonnegative = true := by
  simp only [isDelay, Bool.and_eq_true] at valid
  exact valid.2

namespace Game.Layout

variable {global : Context} {others : List Context} {compiler : Compiler}

/-- If the group of a context is all that is to come, the objects of the context run next. -/
theorem follows_context (layout : Layout global others)
    (split : compiler.contexts = global :: others) {context : Context} (member : context ∈ others)
    (now time : ℚ) (items : UInt32 → ℚ) (log : List Activation) :
    Follows compiler.flush ⟨now, items, [(time, context.group.value)], log⟩
      (context.objects.foldl act ⟨time, items, [], log ++ [context.activation items]⟩) := by
  have fired : Follows compiler.flush ⟨now, items, [(time, context.group.value)], log⟩ _ :=
    follows_activate rfl
  rwa [layout.activate_flush split member] at fired

/-- Once the group of a body is activated, the contexts of the body run one after the other. -/
theorem follows_chained (layout : Layout global others)
    (split : compiler.contexts = global :: others) {inner : Reference} {earlier : List Context}
    {last : Context} (chained : Chained inner earlier last)
    (within : ∀ context ∈ earlier, context ∈ others) (now time : ℚ) (items : UInt32 → ℚ)
    (log : List Activation) :
    ∃ now' time', Follows compiler.flush ⟨now, items, [(time, inner.value)], log⟩
      ⟨now', items, [(time', last.group.value)], log ++ earlier.map (·.activation items)⟩ := by
  induction chained with
  | first group => exact ⟨now, time, by simpa [group] using Follows.refl _ _⟩
  | @next earlier last context seconds spawn chained valid isGroup spawned _ ih =>
      obtain ⟨now', time', reached⟩ := ih fun context member =>
        within context (List.mem_append_left _ member)
      let filled : Context := { last with objects := last.objects ++ [spawn] }
      have runs := layout.follows_context split (within filled (by simp [filled])) now' time' items
        (log ++ earlier.map (·.activation items))
      have spawns : filled.objects.foldl act
          ⟨time', items, [], log ++ earlier.map (·.activation items) ++ [filled.activation items]⟩ =
            ⟨time', items, [(time' + seconds.toRat, context.group.value)],
              log ++ (earlier ++ [filled]).map (·.activation items)⟩ := by
        rw [List.foldl_append, foldl_act_of_inert chained.inert, List.foldl_cons, List.foldl_nil,
          act_spawn isGroup (Double.isNonnegative_of_isDelay valid) spawned, State.schedule]
        simp
      rw [spawns] at runs
      exact ⟨_, _, reached.trans runs⟩

end Game.Layout

/-! ## Playing a loop -/

namespace LoopLevel

variable {range : LoopRange} {delay : Double} {item : UInt32}

theorem instantCount (level : LoopLevel range delay item) :
    Trigger.instantCount item (.ofInt range.stop.toInt) (range.condition ⟨item, .item⟩).comparator
      level.inner = .ok level.comparison :=
  level.compares

theorem layout (level : LoopLevel range delay item)
    (distinct : (level.others.map (·.group.value)).Nodup) :
    Game.Layout level.global level.others where
  plain := by
    have absent {key : String} (member : key ∈ [Field.groups, Field.spawnTriggered]) :=
      Trigger.get?_of_spawn level.isCheck level.spawns member
    simp only [level.globalObjects, List.forall_mem_cons, List.not_mem_nil, false_implies,
      implies_true, and_true]
    exact ⟨⟨rfl, rfl⟩, absent (by decide), absent (by decide)⟩
  belongs := by
    simp only [others, List.forall_mem_cons, List.forall_mem_append, List.not_mem_nil,
      false_implies, implies_true, and_true, level.checkObjects, ending]
    refine ⟨.inr ?_, level.chained.belongs,
      fun object member => .inl (level.chained.inert object member), .inr rfl,
      .inr (Trigger.get?_of_spawn level.isCheck level.spawnsAgain (by decide))⟩
    have made := level.instantCount
    rw [Trigger.instantCount_of_group level.isInner] at made
    rw [← Except.ok.inj made]
    rfl
  distinct := distinct

theorem mem_others_check (level : LoopLevel range delay item) : level.check ∈ level.others :=
  List.mem_cons_self

theorem mem_others_ending (level : LoopLevel range delay item) : level.ending ∈ level.others := by
  simp [others]

/-- The check activates the body if the counter lies before the end. -/
theorem act_comparison (level : LoopLevel range delay item) (exact : range.Exact)
    {state : Game.State} {number : ℕ} (counted : state.items = range.items item number) :
    Game.act state level.comparison =
      if range.Before (range.value number) then state.schedule 0 level.inner.value else state := by
  rw [Game.act_instantCount level.isInner (exact range.stop (by simp)) level.instantCount, counted,
    LoopRange.items_self]
  simp only [LoopRange.holds_condition]

/-- The last context of the body advances the counter and activates the check again. -/
theorem foldl_ending (level : LoopLevel range delay item) (exact : range.Exact)
    (isDelay : delay.isDelay = true) (time : ℚ) (number : ℕ) (log : List Game.Activation) :
    level.ending.objects.foldl Game.act ⟨time, range.items item number, [], log⟩ =
      ⟨time, range.items item (number + 1), [(time + delay.toRat, level.check.group.value)],
        log⟩ := by
  rw [ending, List.foldl_append, Game.foldl_act_of_inert level.chained.inert, List.foldl_cons,
    List.foldl_cons, List.foldl_nil, Game.act_pickupAdd item (exact range.step (by simp)),
    Game.act_spawn level.isCheck (Double.isNonnegative_of_isDelay isDelay) level.spawnsAgain,
    Game.State.put, Game.State.schedule]
  simp only [LoopRange.update_items, List.nil_append]

/-- The activations of the first iterations. -/
def activations (level : LoopLevel range delay item) (count : ℕ) : List Game.Activation :=
  (List.range count).flatMap fun number =>
    level.others.map (·.activation (range.items item number))

/-- In each iteration the group of the body is activated once. -/
theorem filter_activations (level : LoopLevel range delay item)
    (distinct : (level.others.map (·.group.value)).Nodup) (count : ℕ) :
    (level.activations count).filter (·.group == level.inner.value) =
      (List.range count).map fun number => ⟨level.inner.value, range.items item number⟩ := by
  obtain ⟨first, rest, split, group⟩ :=
    level.chained.exists_head (show level.ending.group = level.last.group from rfl)
  have member : level.inner.value ∈ level.others.map (·.group.value) := by
    simp [others, split, group]
  have once (items : UInt32 → ℚ) :
      (level.others.map (·.activation items)).filter (·.group == level.inner.value) =
        [⟨level.inner.value, items⟩] := by
    have groups : level.others.map (·.activation items) =
        (level.others.map (·.group.value)).map fun group => ⟨group, items⟩ := by
      simp [Context.activation]
    rw [groups, List.filter_map]
    change ((level.others.map (·.group.value)).filter (· == level.inner.value)).map _ = _
    rw [List.filter_beq, List.count_eq_one_of_mem distinct member]
    rfl
  rw [activations, List.filter_flatMap, List.map_eq_flatMap]
  simp only [once]

section

variable {compiler : Compiler} (level : LoopLevel range delay item)
  (layout : Game.Layout level.global level.others)
  (split : compiler.contexts = level.global :: level.others) (exact : range.Exact)

include layout split exact

/-- A value before the end is an iteration: the check and all contexts of the body are activated
with that value of the counter, and the check comes again with the next one. -/
theorem follows_iteration (isDelay : delay.isDelay = true) {number : ℕ}
    (before : range.Before (range.value number)) (now time : ℚ) (log : List Game.Activation) :
    ∃ now' time', Game.Follows compiler.flush
      ⟨now, range.items item number, [(time, level.check.group.value)], log⟩
      ⟨now', range.items item (number + 1), [(time', level.check.group.value)],
        log ++ level.others.map (·.activation (range.items item number))⟩ := by
  have checked := layout.follows_context split level.mem_others_check now time
    (range.items item number) log
  rw [level.checkObjects, List.foldl_cons, List.foldl_nil, level.act_comparison exact rfl,
    if_pos before] at checked
  obtain ⟨now', time', walked⟩ := layout.follows_chained split level.chained
    (fun context member => by simp [others, member]) time (time + 0) (range.items item number)
    (log ++ [level.check.activation (range.items item number)])
  have ended := layout.follows_context split level.mem_others_ending now' time'
    (range.items item number) (log ++ [level.check.activation (range.items item number)] ++
      level.earlier.map (·.activation (range.items item number)))
  rw [level.foldl_ending exact isDelay] at ended
  refine ⟨time', time' + delay.toRat, ?_⟩
  have whole := checked.trans (walked.trans ended)
  simpa [others] using whole

/-- A value that is not before the end is checked, and nothing is to come. -/
theorem settles_last {number : ℕ} (done : ¬range.Before (range.value number)) (now time : ℚ)
    (log : List Game.Activation) :
    Game.Settles compiler.flush
      ⟨now, range.items item number, [(time, level.check.group.value)], log⟩
      ⟨time, range.items item number, [],
        log ++ [level.check.activation (range.items item number)]⟩ := by
  have checked := layout.follows_context split level.mem_others_check now time
    (range.items item number) log
  rw [level.checkObjects, List.foldl_cons, List.foldl_nil, level.act_comparison exact rfl,
    if_neg done] at checked
  exact checked _ (.rest rfl)

/-- The level starts with the counter at the first value and the check to come. -/
theorem start_flush : Game.start compiler.flush =
    ⟨0, range.items item 0, [(0, level.check.group.value)], []⟩ := by
  have zero : Double.zero.toRat = 0 := Double.toRat_of_isZero rfl
  rw [layout.start_flush split, level.globalObjects, List.foldl_cons, List.foldl_cons,
    List.foldl_nil, Game.act_pickupSet item (exact range.start (by simp)),
    Game.act_spawn level.isCheck rfl level.spawns, zero]
  simp [Game.State.put, Game.State.schedule, Game.initial, LoopRange.items, LoopRange.value]

/-- What has happened after a number of iterations whose values lie before the end. -/
theorem follows_iterations (isDelay : delay.isDelay = true) {count : ℕ}
    (before : ∀ number < count, range.Before (range.value number)) :
    ∃ now time, Game.Follows compiler.flush (Game.start compiler.flush)
      ⟨now, range.items item count, [(time, level.check.group.value)],
        level.activations count⟩ := by
  induction count with
  | zero =>
      rw [level.start_flush layout split exact]
      exact ⟨0, 0, .refl _ _⟩
  | succ count ih =>
      obtain ⟨now, time, reached⟩ := ih fun number less => before number (by omega)
      obtain ⟨now', time', next⟩ := level.follows_iteration layout split exact isDelay
        (before count (by omega)) now time (level.activations count)
      refine ⟨now', time', ?_⟩
      rw [activations, List.range_succ, List.flatMap_append, List.flatMap_singleton]
      exact reached.trans next

end

end LoopLevel

/-- A valid counting loop at the outermost level of a fresh compilation, over a body that appends
objects that do nothing and waits, and does not wait so often that the groups run out.  In the game,
the group of the body is activated once for each value of the range that lies before the end, in
order.  With each of them all contexts of the body run, in which the objects of the body lie.  Then
the check fails and nothing is to come, with the counter at the first value not before the end. -/
theorem counting_loop_runs_body_once_per_value (options : CompilerOptions) {names : Nat → String}
    (supply : Compiler.Supply names) {range : LoopRange} (valid : range.check = .ok ())
    (exact : range.Exact) {delay : Double} (isDelay : delay.isDelay = true)
    {body : Counter → List Statement}
    (inert : ∀ counter, ∀ statement ∈ body counter, statement.isInert = true)
    (room : ∀ counter, (body counter).countP Statement.isWait + 6 < 2 ^ 32) :
    ∃ (counter : Counter) (after : Run) (global check inner : Context) (rest : List Context)
      (count : ℕ) (final : Game.State),
      Build.outcome (Build.forLoop range delay fun counter => Statement.execAll (body counter))
        (.start (.start options names)) = (.ok counter, after) ∧
      after.compiler.contexts = global :: check :: inner :: rest ∧
      inertObjects (inner :: rest) = (body counter).filterMap Statement.object? ∧
      (∀ number : ℕ, number < count ↔ range.Before (range.value number)) ∧
      Game.Settles after.compiler.flush (Game.start after.compiler.flush) final ∧
      (final.log.filter (·.group == inner.group.value)).map (·.items counter.item) =
        (List.range count).map (fun number => (range.value number : ℚ)) ∧
      final.log = (List.range count).flatMap (fun number => (check :: inner :: rest).map
        (·.activation (range.items counter.item number))) ++
          [check.activation (range.items counter.item count)] ∧
      final.items = range.items counter.item count ∧ final.pending = [] := by
  obtain ⟨item, after, level, compiled, split, distinct, holds⟩ :=
    Build.exists_loopLevel options supply valid isDelay inert room
  obtain ⟨count, counts⟩ := LoopRange.exists_count valid
  obtain ⟨inner, rest, contexts, group⟩ :=
    level.chained.exists_head (show level.ending.group = level.last.group from rfl)
  have layout := level.layout distinct
  obtain ⟨now, time, reached⟩ := level.follows_iterations layout split exact isDelay
    fun number less => (counts number).1 less
  have done : ¬range.Before (range.value count) := fun before =>
    Nat.lt_irrefl count ((counts count).2 before)
  have settled := reached _ (level.settles_last layout split exact done now time
    (level.activations count))
  have others : level.others = level.check :: inner :: rest := by rw [LoopLevel.others, contexts]
  have apart : level.check.group.value ≠ level.inner.value := by
    intro same
    simp [others, group, same] at distinct
  refine ⟨⟨item, .item⟩, after, level.global, level.check, inner, rest, count, _, compiled,
    by rw [split, others], contexts ▸ holds, counts, settled, ?_, ?_, rfl, rfl⟩
  · rw [group, List.filter_append, level.filter_activations distinct]
    simp [Context.activation, apart, LoopRange.items_self]
  · rw [LoopLevel.activations, others]

/-- Counting down from five by three. -/
def LoopRange.descending : LoopRange := ⟨5, -2, -3⟩

/-- An object, two waits and another object. -/
def Statement.pausing : List Statement :=
  [.add .empty, .wait .zero, .wait (.ofInt 1), .add .empty]

theorem Compiler.supply_replicate :
    Supply fun number => String.ofList (.replicate (number + 1) 'a') where
  injective one two same := by
    have lists := congrArg String.toList same
    have lengths := congrArg List.length lists
    simpa using lengths
  apart number same := by
    have lists := congrArg String.toList same
    have heads := congrArg List.head? lists
    simp [globalName, List.replicate_succ] at heads

/-- The values are those before the end; the first one past it is left. -/
theorem descending_loop_runs_three_times :
    LoopRange.descending.check = .ok () ∧ LoopRange.descending.Exact ∧
      (∀ statement ∈ Statement.pausing, statement.isInert = true) ∧
      ∃ (counter : Counter) (after : Run) (inner : Context) (final : Game.State),
        Build.outcome (Build.forLoop .descending (.ofInt 1) fun _ =>
          Statement.execAll Statement.pausing)
          (.start (.start .standard fun number => String.ofList (.replicate (number + 1) 'a'))) =
            (.ok counter, after) ∧
        after.compiler.context? 2 = some inner ∧
        Game.Settles after.compiler.flush (Game.start after.compiler.flush) final ∧
        (final.log.filter (·.group == inner.group.value)).map (·.items counter.item) =
          [5, 2, -1] ∧
        final.items counter.item = -4 ∧ final.pending = [] := by
  have valid : LoopRange.descending.check = .ok () := by decide
  have exact : LoopRange.descending.Exact := by
    simp only [LoopRange.Exact, List.forall_mem_cons, List.not_mem_nil, false_implies,
      implies_true, and_true]
    decide
  have inert : ∀ statement ∈ Statement.pausing, statement.isInert = true := by decide +kernel
  obtain ⟨counter, after, global, check, inner, rest, count, final, compiled, contexts, _, counts,
    settled, values, _, items, idle⟩ :=
      counting_loop_runs_body_once_per_value .standard Compiler.supply_replicate valid exact
        (show (Double.ofInt 1).isDelay = true by decide +kernel) (fun _ => inert)
        (fun _ => by decide)
  have three : count = 3 := by
    have more := (counts 2).2 (by decide)
    have less := mt (counts 3).1 (by decide)
    omega
  subst three
  refine ⟨valid, exact, inert, counter, after, inner, final, compiled, ?_, settled, ?_, ?_, idle⟩
  · rw [Compiler.context?, contexts]
    rfl
  · have first : (List.range 3).map LoopRange.descending.value = [5, 2, -1] := by decide
    have casts := congrArg (List.map fun value : ℤ => (value : ℚ)) first
    rw [List.map_map] at casts
    simpa using values.trans casts
  · have next : LoopRange.descending.value 3 = -4 := by decide
    rw [items, LoopRange.items_self, next]
    rfl

end TriggerGraph
