import Mathlib.Algebra.Order.Ring.Nat
import TriggerGraph.Proofs.Constructs

/-!
# Fresh groups and names

A pool hands out rising ids as long as it does not run over, and steps over no more ids than were
reserved.  So in a compilation that reserves nothing more, opening a context succeeds and gives it a
group of its own.
-/

namespace TriggerGraph

namespace Pool

theorem countP_add_le {α : Type} (one two both : α → Bool) (list : List α)
    (first : ∀ x, one x → both x ∧ ¬two x) (second : ∀ x, two x → both x) :
    list.countP one + list.countP two ≤ list.countP both := by
  induction list with
  | nil => simp
  | cons x rest ih =>
      simp only [List.countP_cons]
      have here := first x
      have there := second x
      grind

theorem toNat_succ {last : UInt32} (room : last.toNat + 1 < 2 ^ 32) :
    (last + 1).toNat = last.toNat + 1 := by
  rw [UInt32.toNat_add]
  exact Nat.mod_eq_of_lt room

/-- The next id lies above the last one, and all ids between them were pending. -/
theorem advance_spec {last : UInt32} {pending skipped : List UInt32}
    (room : last.toNat + pending.length + 1 < 2 ^ 32) :
    last.toNat < (advance last pending skipped).1.toNat ∧
      (advance last pending skipped).1.toNat ≤ last.toNat + 1 +
        pending.countP fun id => last.toNat < id.toNat ∧
          id.toNat < (advance last pending skipped).1.toNat := by
  fun_induction advance last pending skipped with
  | case1 last pending skipped found ih =>
      have succ : (last + 1).toNat = last.toNat + 1 := toNat_succ (by omega)
      have shorter := List.length_erase_of_mem found
      have positive := List.length_pos_of_mem found
      obtain ⟨above, within⟩ := ih (by omega)
      generalize (advance (last + 1) (pending.erase (last + 1))
        (skipped.insert (last + 1))).1.toNat = value at above within ⊢
      rw [(List.perm_cons_erase found).countP_eq, List.countP_cons]
      have fewer : (pending.erase (last + 1)).countP (fun id => (last + 1).toNat < id.toNat ∧
          id.toNat < value) ≤ (pending.erase (last + 1)).countP (fun id => last.toNat < id.toNat ∧
          id.toNat < value) := by
        refine List.countP_mono_left fun id _ between => ?_
        simp only [decide_eq_true_eq] at between ⊢
        omega
      have counted : decide (last.toNat < (last + 1).toNat ∧ (last + 1).toNat < value) = true := by
        simp only [decide_eq_true_eq]
        omega
      rw [if_pos counted]
      omega
  | case2 last pending skipped absent =>
      have succ : (last + 1).toNat = last.toNat + 1 := toNat_succ (by omega)
      dsimp only
      omega

end Pool

namespace Compiler

/-- The name and the group of every context. -/
def heads (compiler : Compiler) : List (String × Reference) :=
  compiler.contexts.map fun context => (context.name, context.group)

theorem heads_addTo (compiler : Compiler) (id : Nat) (object : Object) :
    (compiler.addTo id object).heads = compiler.heads :=
  Context.map_modify (fun _ _ => rfl) _ _ _

/-- The name of a context by its number, if all contexts but the global one are anonymous. -/
def label (names : Nat → String) : Nat → String
  | 0 => globalName
  | number + 1 => names (number + 1)

/-- A compilation in which all contexts but the global one are anonymous and nothing was reserved
after the start: names come from the supply and groups rise. -/
structure Tidy (compiler : Compiler) : Prop where
  labels : compiler.heads.map Prod.fst =
    (List.range compiler.contexts.length).map (label compiler.names)
  rising : (compiler.heads.tail.map (·.2.value.toNat)).Pairwise (· < ·)
  bounded : ∀ head ∈ compiler.heads.tail, head.2.value.toNat ≤ compiler.ids.groups.last.toNat
  counted : compiler.ids.groups.last.toNat + 1 ≤ compiler.contexts.length +
    compiler.ids.groups.reserved.countP (·.toNat ≤ compiler.ids.groups.last.toNat)
  reserved : compiler.ids.groups.reserved.length ≤ 2

theorem groups_startIds (options : CompilerOptions) :
    (startIds options).groups.last = 0 ∧ (startIds options).groups.reserved.length ≤ 2 := by
  unfold startIds
  cases options.markerGroup with
  | none => exact ⟨rfl, by decide⟩
  | some marker =>
      refine ⟨rfl, ?_⟩
      change (List.insert marker [1]).length ≤ 2
      rw [List.length_insert]
      split <;> simp

theorem tidy_start (options : CompilerOptions) (names : Nat → String) :
    (start options names).Tidy where
  labels := rfl
  rising := .nil
  bounded := by simp [heads, start]
  counted := by
    have last : (start options names).ids.groups.last = 0 := (groups_startIds options).1
    rw [last]
    exact Nat.le_add_right 1 _
  reserved := (groups_startIds options).2

theorem Tidy.of_same {before after : Compiler} (tidy : before.Tidy)
    (heads : after.heads = before.heads) (groups : after.ids.groups = before.ids.groups)
    (names : after.names = before.names) : after.Tidy := by
  have length : after.contexts.length = before.contexts.length := by
    simpa [Compiler.heads] using congrArg List.length heads
  constructor
  · rw [heads, length, names]
    exact tidy.labels
  · rw [heads]
    exact tidy.rising
  · rw [heads, groups]
    exact tidy.bounded
  · rw [groups, length]
    exact tidy.counted
  · rw [groups]
    exact tidy.reserved

/-- A supply of names that never repeats itself and never gives the global name. -/
structure Supply (names : Nat → String) : Prop where
  injective : ∀ one two, names one = names two → one = two
  apart : ∀ number, names number ≠ globalName

theorem Tidy.find?_eq_none {compiler : Compiler} (tidy : compiler.Tidy)
    (supply : Supply compiler.names) :
    compiler.find? (compiler.names compiler.contexts.length) = none := by
  refine find?_eq_none_iff.2 fun context member => ?_
  have labelled : context.name ∈ compiler.heads.map Prod.fst := by
    rw [heads, List.map_map]
    exact List.mem_map_of_mem member
  rw [tidy.labels] at labelled
  obtain ⟨index, less, same⟩ := List.mem_map.1 labelled
  rw [List.mem_range] at less
  rw [← same]
  cases index with
  | zero => exact (supply.apart _).symm
  | succ index =>
      intro equal
      have := supply.injective _ _ equal
      omega

/-- The group of a new context lies above all groups so far, and all ids between were reserved. -/
theorem Tidy.group_spec {compiler next : Compiler} {name : String} {opened : Opened}
    (tidy : compiler.Tidy) (room : compiler.contexts.length + 4 < 2 ^ 32)
    (opens : Opens compiler name opened next) :
    compiler.ids.groups.last.toNat < opened.group.value.toNat ∧
      opened.group.value.toNat ≤ compiler.ids.groups.last.toNat + 1 +
        compiler.ids.groups.reserved.countP fun id =>
          compiler.ids.groups.last.toNat < id.toNat ∧ id.toNat < opened.group.value.toNat := by
  rw [opens.group]
  refine Pool.advance_spec ?_
  change compiler.ids.groups.last.toNat + compiler.ids.groups.reserved.length + 1 < 2 ^ 32
  have counted := tidy.counted
  have few := tidy.reserved
  have passed := List.countP_le_length (l := compiler.ids.groups.reserved)
    (p := (·.toNat ≤ compiler.ids.groups.last.toNat))
  omega

theorem Tidy.of_opens {compiler next : Compiler} {opened : Opened} (tidy : compiler.Tidy)
    (nonempty : 0 < compiler.contexts.length) (room : compiler.contexts.length + 4 < 2 ^ 32)
    (opens : Opens compiler (compiler.names compiler.contexts.length) opened next) :
    next.Tidy := by
  obtain ⟨above, within⟩ := tidy.group_spec room opens
  have last : next.ids.groups.last = opened.group.value := by
    rw [opens.ids, opens.group]
    rfl
  have reserved : next.ids.groups.reserved = compiler.ids.groups.reserved := by
    rw [opens.ids]
    rfl
  have heads : next.heads =
      compiler.heads ++ [(compiler.names compiler.contexts.length, opened.group)] := by
    simp [Compiler.heads, opens.contexts]
  have tail : next.heads.tail =
      compiler.heads.tail ++ [(compiler.names compiler.contexts.length, opened.group)] := by
    rw [heads, List.tail_append_of_ne_nil]
    simpa [Compiler.heads, List.length_pos_iff] using nonempty
  constructor
  · rw [heads, opens.length, opens.names, List.map_append, tidy.labels, List.range_succ,
      List.map_append]
    obtain ⟨count, length⟩ : ∃ count, compiler.contexts.length = count + 1 :=
      ⟨_, (Nat.succ_pred_eq_of_pos nonempty).symm⟩
    rw [length]
    rfl
  · rw [tail, List.map_append, List.pairwise_append]
    refine ⟨tidy.rising, List.pairwise_singleton _ _, fun one first two second => ?_⟩
    obtain ⟨head, member, rfl⟩ := List.mem_map.1 first
    have bounded := tidy.bounded head member
    simp only [List.map_cons, List.map_nil, List.mem_singleton] at second
    omega
  · rw [tail, last]
    intro head member
    rcases List.mem_append.1 member with old | new
    · have bounded := tidy.bounded head old
      omega
    · obtain rfl := List.mem_singleton.1 new
      exact Nat.le_refl _
  · have counted := tidy.counted
    have more := Pool.countP_add_le (·.toNat ≤ compiler.ids.groups.last.toNat)
      (fun id => compiler.ids.groups.last.toNat < id.toNat ∧
        id.toNat < opened.group.value.toNat)
      (·.toNat ≤ opened.group.value.toNat) compiler.ids.groups.reserved
      (by simp; omega) (by simp; omega)
    rw [last, reserved, opens.length]
    omega
  · rw [reserved]
    exact tidy.reserved

/-- Opening a context succeeds. -/
theorem Tidy.opens {compiler : Compiler} (tidy : compiler.Tidy) (supply : Supply compiler.names) :
    ∃ opened next, compiler.openAnonymous = (.ok opened, next) := by
  rw [openAnonymous, openContext, tidy.find?_eq_none supply]
  exact ⟨_, _, rfl⟩

/-- The groups of all contexts but the global one are distinct. -/
theorem Tidy.nodup_groups {compiler : Compiler} (tidy : compiler.Tidy) :
    (compiler.contexts.tail.map (·.group.value)).Nodup := by
  have rising := tidy.rising
  rw [heads, ← List.map_tail, List.map_map, List.pairwise_map] at rising
  refine List.pairwise_map.2 (rising.imp fun less same => ?_)
  simp [same] at less

/-! ## Names to come -/

/-- The names that anonymous contexts will get are all different, and no context has one of them. -/
structure FreshNames (compiler : Compiler) : Prop where
  unused : ∀ number, compiler.contexts.length ≤ number →
    ∀ context ∈ compiler.contexts, context.name ≠ compiler.names number
  apart : ∀ one two, compiler.contexts.length ≤ one → one < two →
    compiler.names one ≠ compiler.names two

namespace FreshNames

theorem of_same {before after : Compiler} (fresh : before.FreshNames)
    (heads : after.heads = before.heads) (names : after.names = before.names) :
    after.FreshNames := by
  have length : after.contexts.length = before.contexts.length := by
    simpa [Compiler.heads] using congrArg List.length heads
  constructor
  · intro number later context member
    have present : (context.name, context.group) ∈ before.heads := by
      rw [← heads]
      exact List.mem_map_of_mem member
    obtain ⟨old, found, same⟩ := List.mem_map.1 present
    rw [names, ← (Prod.mk.inj same).1]
    exact fresh.unused number (length ▸ later) old found
  · intro one two later less
    rw [names]
    exact fresh.apart one two (length ▸ later) less

/-- A context can be opened. -/
theorem opens {compiler : Compiler} (fresh : compiler.FreshNames) :
    ∃ opened next, compiler.openAnonymous = (.ok opened, next) := by
  have unused : compiler.find? (compiler.names compiler.contexts.length) = none :=
    find?_eq_none_iff.2 (fresh.unused _ (Nat.le_refl _))
  rw [openAnonymous, openContext, unused]
  exact ⟨_, _, rfl⟩

/-- The names left are fresh after a context has been opened. -/
theorem of_opens {before after : Compiler} {opened : Opened} (fresh : before.FreshNames)
    (opens : Opens before (before.names before.contexts.length) opened after) :
    after.FreshNames := by
  constructor
  · rw [opens.contexts, opens.names, List.length_append]
    intro number later context member
    rcases List.mem_append.1 member with old | new
    · exact fresh.unused number (by omega) context old
    · rw [List.mem_singleton.1 new]
      exact fresh.apart _ number (Nat.le_refl _) later
  · rw [opens.length, opens.names]
    intro one two later less
    exact fresh.apart one two (by omega) less

end FreshNames

/-- Anonymous contexts may be named by their length, as long as every context with such a name was
opened before. -/
theorem freshNames_of_lengths {compiler : Compiler}
    (names : compiler.names = fun number => String.ofList (.replicate number 'a'))
    (earlier : ∀ context ∈ compiler.contexts,
      context.name.toList = .replicate context.name.toList.length 'a' →
        context.name.toList.length < compiler.contexts.length) : compiler.FreshNames := by
  constructor
  · intro number later context member same
    have spelled : context.name.toList = .replicate number 'a' := by
      rw [same, names, String.toList_ofList]
    have short := earlier context member (by rw [spelled, List.length_replicate])
    rw [spelled, List.length_replicate] at short
    omega
  · intro one two _ less same
    rw [names] at same
    have lengths := congrArg (·.toList.length) same
    simp only [String.toList_ofList, List.length_replicate] at lengths
    omega

end Compiler
end TriggerGraph
