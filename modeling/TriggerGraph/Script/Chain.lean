/-!
# Wait chains

A wait continues one context in another.  The chain keeps the latest continuation of every context,
and its walk leads to where the work begun in a context ends.
-/

namespace TriggerGraph

/-- Continuations between contexts, the newest first. -/
structure Chain where
  /-- Pairs of a context and its continuation; the first pair of a context counts. -/
  links : List (Nat × Nat)
  deriving DecidableEq

namespace Chain

/-- The chain without continuations. -/
def empty : Chain := ⟨[]⟩

/-- Make one context the continuation of another. -/
def link (chain : Chain) (source target : Nat) : Chain := ⟨(source, target) :: chain.links⟩

/-- The continuation of a context. -/
def next? (chain : Chain) (source : Nat) : Option Nat := chain.links.lookup source

/-- The links that leave other contexts. -/
def without (links : List (Nat × Nat)) (source : Nat) : List (Nat × Nat) :=
  links.filter (·.1 != source)

theorem length_without_lt {links : List (Nat × Nat)} {source target : Nat}
    (found : links.lookup source = some target) :
    (without links source).length < links.length := by
  refine Nat.lt_of_le_of_ne (List.length_filter_le _ _) fun equal => ?_
  have every := List.length_filter_eq_length_iff.1 equal
  obtain ⟨before, after, split, _⟩ := List.lookup_eq_some_iff.1 found
  have := every (source, target) (by rw [split]; simp)
  simp at this

/-- Follow links as long as there are any.  A link is used once, so that a walk around a cycle stops
where it closes. -/
def follow (links : List (Nat × Nat)) (start : Nat) : Nat :=
  match _found : links.lookup start with
  | none => start
  | some next => follow (without links start) next
termination_by links.length
decreasing_by exact length_without_lt _found

/-- The context where the chain from `start` ends. -/
def terminal (chain : Chain) (start : Nat) : Nat := follow chain.links start

end Chain
end TriggerGraph
