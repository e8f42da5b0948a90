import Mathlib.Data.List.Nodup
import TriggerGraph.Script.Compiler

/-!
# The indexes of a compiler

An index lists keys with their positions, the newest first, and a lookup gives the latest position
of a key.  So a name or a group that is found leads to a context that has it, and one that is not
found belongs to no context.
-/

namespace TriggerGraph

/-! ## Positions of keys -/

section Positions

variable {α : Type} [BEq α] [LawfulBEq α] {keys : List α} {key : α} {id : Nat}

theorem lookup_positions_eq_none_iff : keys.zipIdx.reverse.lookup key = none ↔ key ∉ keys := by
  rw [List.lookup_eq_none_iff]
  constructor
  · intro apart member
    obtain ⟨id, here⟩ := List.mem_iff_getElem?.1 member
    have listed : (key, id) ∈ keys.zipIdx := List.mk_mem_zipIdx_iff_getElem?.2 here
    simpa using apart _ (List.mem_reverse.2 listed)
  · intro absent pair member
    have here := List.mk_mem_zipIdx_iff_getElem?.1 (List.mem_reverse.1 member)
    simp only [bne_iff_ne, ne_eq]
    rintro rfl
    exact absent (List.mem_of_getElem? here)

theorem getElem?_of_lookup_positions (found : keys.zipIdx.reverse.lookup key = some id) :
    keys[id]? = some key := by
  obtain ⟨before, after, split, _⟩ := List.lookup_eq_some_iff.1 found
  have listed : (key, id) ∈ keys.zipIdx := by
    rw [← List.mem_reverse, split]
    simp
  exact List.mk_mem_zipIdx_iff_getElem?.1 listed

/-- A key that stands in one position only is found there. -/
theorem lookup_positions_eq_some_iff (distinct : keys.Nodup) :
    keys.zipIdx.reverse.lookup key = some id ↔ keys[id]? = some key := by
  refine ⟨getElem?_of_lookup_positions, fun here => ?_⟩
  cases found : keys.zipIdx.reverse.lookup key with
  | none => exact absurd (List.mem_of_getElem? here) (lookup_positions_eq_none_iff.1 found)
  | some other =>
      have there := getElem?_of_lookup_positions found
      have inside := (List.getElem?_eq_some_iff.1 there).1
      exact congrArg some ((List.getElem?_inj inside distinct).1 (there.trans here.symm))

/-- A lookup only asks of every key whether it is the one that is wanted. -/
theorem lookup_positions_eq_test (keys : List α) (key : α) :
    keys.zipIdx.reverse.lookup key = (keys.map (· == key)).zipIdx.reverse.lookup true := by
  have tested (pairs : List (α × Nat)) :
      pairs.lookup key = (pairs.map (Prod.map (· == key) id)).lookup true := by
    induction pairs with
    | nil => rfl
    | cons pair rest ih =>
        rw [List.map_cons, List.lookup_cons, List.lookup_cons, ih, Bool.beq_comm]
        simp [Prod.map]
  rw [tested, List.zipIdx_map, List.map_reverse]

end Positions

/-! ## Contexts under names and groups -/

namespace Compiler

/-- The index has a pair for every context and leads from its key to it alone. -/
structure IndexedBy {α : Type} [BEq α] (compiler : Compiler) (view : Context → α)
    (index : List (α × Nat)) : Prop where
  keys : (index.map (·.1)).Nodup
  lookup : ∀ key id, index.lookup key = some id ↔
    ∃ context, compiler.context? id = some context ∧ view context = key

section Listed

variable {compiler : Compiler} {α : Type} [BEq α] [LawfulBEq α] {view : Context → α}
  {index : List (α × Nat)} (listed : index = (compiler.contexts.map view).zipIdx.reverse)
include listed

theorem lookup_eq_none_iff {key : α} :
    index.lookup key = none ↔ ∀ context ∈ compiler.contexts, view context ≠ key := by
  rw [listed, lookup_positions_eq_none_iff, List.mem_map]
  simp

theorem context?_of_lookup {key : α} {id : Nat} (found : index.lookup key = some id) :
    ∃ context, compiler.context? id = some context ∧ view context = key := by
  rw [listed] at found
  have here := getElem?_of_lookup_positions found
  rwa [List.getElem?_map, Option.map_eq_some_iff] at here

theorem lookup_lt {key : α} {id : Nat} (found : index.lookup key = some id) :
    id < compiler.contexts.length := by
  obtain ⟨context, here, _⟩ := context?_of_lookup listed found
  exact (List.getElem?_eq_some_iff.1 here).1

/-- If no two contexts have the same key, the one that is found is the only one. -/
theorem indexedBy_of_nodup (distinct : (compiler.contexts.map view).Nodup) :
    compiler.IndexedBy view index where
  keys := by
    rw [listed, List.map_reverse, List.zipIdx_map_fst]
    exact List.nodup_reverse.2 distinct
  lookup key id := by
    rw [listed, lookup_positions_eq_some_iff distinct, List.getElem?_map, Option.map_eq_some_iff]
    rfl

end Listed

/-- The indexes of a compiler are determined by its contexts. -/
theorem ext_of_contexts {one two : Compiler} (ids : one.ids = two.ids)
    (contexts : one.contexts = two.contexts) (stack : one.stack = two.stack)
    (chain : one.chain = two.chain) (options : one.options = two.options)
    (names : one.names = two.names) : one = two := by
  have byName : one.byName = two.byName := by rw [one.named, contexts, two.named]
  have byGroup : one.byGroup = two.byGroup := by rw [one.owned, contexts, two.owned]
  cases one
  cases two
  rw [mk.injEq]
  exact ⟨ids, contexts, byName, byGroup, stack, chain, options, names⟩

variable {compiler : Compiler}

theorem find?_eq_none_iff {name : String} :
    compiler.find? name = none ↔ ∀ context ∈ compiler.contexts, context.name ≠ name :=
  lookup_eq_none_iff compiler.named

theorem find?_eq_test (compiler : Compiler) (name : String) :
    compiler.find? name =
      (compiler.contexts.map (·.name == name)).zipIdx.reverse.lookup true := by
  rw [find?, compiler.named, lookup_positions_eq_test, List.map_map]
  rfl

theorem find?_lt {name : String} {id : Nat} (found : compiler.find? name = some id) :
    id < compiler.contexts.length :=
  lookup_lt compiler.named found

theorem owner?_lt {group : Reference} {id : Nat} (found : compiler.owner? group = some id) :
    id < compiler.contexts.length := by
  unfold owner? at found
  split at found
  · exact lookup_lt compiler.owned found
  · cases found

end Compiler
end TriggerGraph
