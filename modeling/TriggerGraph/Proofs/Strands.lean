import TriggerGraph.Proofs.Game
import TriggerGraph.Proofs.Registry

/-!
# Spawns between contexts

A spawn in one context whose target is the group of another is an edge, and its delay is the label
of the edge.  A strand is a row of contexts in which every context has one edge only, to the next
and later one, and the last has none.  Then there is just one path from the first context to each of
the others.
-/

namespace TriggerGraph

/-- A spawn that leads from one context to another. -/
structure SpawnEdge where
  /-- The context that holds the spawn. -/
  source : Nat
  /-- The place of the spawn among the objects of its context. -/
  position : Nat
  /-- The context whose group is activated. -/
  target : Nat
  /-- The delay of the activation. -/
  delay : ℚ
  deriving DecidableEq

/-- Where edges lead from a context, taken one after the other. -/
def SpawnEdge.ending (start : Nat) : List SpawnEdge → Nat
  | [] => start
  | edge :: rest => ending edge.target rest

/-- No object of the context is a spawn. -/
def Context.IsSilent (context : Context) : Prop :=
  ∀ object ∈ context.objects, object.type? ≠ some ObjectType.spawn

namespace Compiler

/-- The edge is one of the spawns in the contexts. -/
def HasEdge (compiler : Compiler) (edge : SpawnEdge) : Prop :=
  ∃ context object owner, compiler.context? edge.source = some context ∧
    context.objects[edge.position]? = some object ∧ object.type? = some ObjectType.spawn ∧
    compiler.context? edge.target = some owner ∧ object.id Field.target = owner.group.value ∧
    object.amount Field.spawnDuration = edge.delay

/-- The edges lead from one context to another, each from where the one before it ends. -/
inductive Path (compiler : Compiler) : Nat → List SpawnEdge → Nat → Prop where
  | nil (start : Nat) : Path compiler start [] start
  | cons {start last : Nat} {edge : SpawnEdge} {rest : List SpawnEdge}
      (here : compiler.HasEdge edge) (source : edge.source = start)
      (onwards : Path compiler edge.target rest last) : Path compiler start (edge :: rest) last

/-- Each context on the way has just one edge, which leads to a later context, and the last one has
none. -/
inductive Strand (compiler : Compiler) : Nat → List SpawnEdge → Prop where
  | nil {start : Nat} (none : ∀ edge, compiler.HasEdge edge → edge.source ≠ start) :
      Strand compiler start []
  | cons {start : Nat} {edge : SpawnEdge} {rest : List SpawnEdge} (here : compiler.HasEdge edge)
      (source : edge.source = start)
      (only : ∀ other, compiler.HasEdge other → other.source = start → other = edge)
      (forward : start < edge.target) (onwards : Strand compiler edge.target rest) :
      Strand compiler start (edge :: rest)

/-! ## Edges of a context -/

theorem noEdge_of_silent {compiler : Compiler} {id : Nat} {context : Context}
    (found : compiler.context? id = some context) (silent : context.IsSilent) :
    ∀ edge, compiler.HasEdge edge → edge.source ≠ id := by
  rintro edge ⟨holder, object, _, held, placed, spawns, _⟩ rfl
  rw [found] at held
  cases held
  exact silent object (List.mem_of_getElem? placed) spawns

theorem Registered.context?_inj {compiler : Compiler} (registered : compiler.Registered)
    {one two : Nat} {first second : Context} (here : compiler.context? one = some first)
    (there : compiler.context? two = some second) (same : first.group.value = second.group.value) :
    one = two := by
  have mapped {id : Nat} {context : Context} (found : compiler.context? id = some context) :
      (compiler.contexts.map (·.group.value))[id]? = some context.group.value := by
    rw [List.getElem?_map]
    exact congrArg (Option.map _) found
  have short : one < (compiler.contexts.map (·.group.value)).length :=
    (List.getElem?_eq_some_iff.1 (mapped here)).1
  refine (List.getElem?_inj short registered.groups).1 ?_
  rw [mapped here, mapped there, same]

/-- A context whose last object is its only spawn has one edge. -/
theorem onlyEdge_of_spawn {compiler : Compiler} (registered : compiler.Registered)
    {source target : Nat} {context owner : Context} {silent : List Object} {object : Object}
    {seconds : Double} (found : compiler.context? source = some context)
    (objects : context.objects = silent ++ [object])
    (quiet : ∀ other ∈ silent, other.type? ≠ some ObjectType.spawn)
    (owns : compiler.context? target = some owner) (isGroup : owner.group.domain = .group)
    (valid : seconds.isDelay = true) (spawned : Trigger.spawn owner.group seconds = .ok object) :
    compiler.HasEdge ⟨source, silent.length, target, seconds.toRat⟩ ∧
      ∀ other, compiler.HasEdge other → other.source = source →
        other = ⟨source, silent.length, target, seconds.toRat⟩ := by
  have type : object.type? = some ObjectType.spawn := Trigger.type?_of_spawn isGroup spawned
  have aims : object.id Field.target = owner.group.value := Trigger.id_of_spawn isGroup spawned
  have delay : object.amount Field.spawnDuration = seconds.toRat :=
    Trigger.amount_of_spawn isGroup (Bool.and_eq_true_iff.1 valid).2 spawned
  constructor
  · exact ⟨context, object, owner, found, by simp [objects], type, owns, aims, delay⟩
  · rintro ⟨_, position, reached, label⟩
      ⟨holder, other, goal, held, placed, spawns, known, hits, lasts⟩ rfl
    obtain rfl : context = holder := Option.some.inj (found.symm.trans held)
    dsimp only at placed known lasts
    rw [objects] at placed
    -- every object before the last one is no spawn
    have here : position = silent.length := by
      rcases Nat.lt_or_ge position silent.length with early | late
      · rw [List.getElem?_append_left early] at placed
        exact absurd spawns (quiet other (List.mem_of_getElem? placed))
      · have := (List.getElem?_eq_some_iff.1 placed).1
        rw [List.length_append, List.length_singleton] at this
        omega
    subst here
    obtain rfl : object = other := by simpa using placed
    have same : reached = target :=
      registered.context?_inj known owns (hits.symm.trans aims)
    rw [same, ← lasts, delay]

/-! ## Paths along a strand -/

namespace Strand

open SpawnEdge

variable {compiler : Compiler}

theorem le_of_path {start last : Nat} {links edges : List SpawnEdge}
    (strand : compiler.Strand start links) (path : compiler.Path start edges last) :
    start ≤ last := by
  induction strand generalizing edges with
  | nil none =>
      cases path with
      | nil => exact Nat.le_refl _
      | cons here source => exact absurd source (none _ here)
  | cons _ _ only forward _ ih =>
      cases path with
      | nil => exact Nat.le_refl _
      | cons here source onwards =>
          cases only _ here source
          exact Nat.le_trans (Nat.le_of_lt forward) (ih onwards)

/-- The edges of a strand up to some context are a path there. -/
theorem path {start : Nat} {taken left : List SpawnEdge}
    (strand : compiler.Strand start (taken ++ left)) :
    compiler.Path start taken (ending start taken) := by
  induction taken generalizing start with
  | nil => exact .nil start
  | cons edge taken ih =>
      cases strand with
      | cons here source _ _ onwards => exact .cons here source (ih onwards)

/-- They are the only path there, since no edge of the strand leads back. -/
theorem eq_of_path {start : Nat} {taken left other : List SpawnEdge}
    (strand : compiler.Strand start (taken ++ left))
    (path : compiler.Path start other (ending start taken)) : other = taken := by
  induction taken generalizing start other with
  | nil =>
      cases path with
      | nil => rfl
      | cons here source onwards =>
          cases strand with
          | nil none => exact absurd source (none _ here)
          | cons _ _ only forward rest =>
              cases only _ here source
              exact absurd (rest.le_of_path onwards) (Nat.not_le_of_lt forward)
  | cons edge taken ih =>
      cases strand with
      | cons _ _ only forward rest =>
          have beyond := Nat.lt_of_lt_of_le forward (rest.le_of_path rest.path)
          generalize reached : ending start (edge :: taken) = last at path
          cases path with
          | nil => exact absurd reached.symm (Nat.ne_of_lt beyond)
          | cons here source onwards =>
              cases only _ here source
              subst reached
              rw [ih rest onwards]

/-- The edges of a context on the strand belong to the strand. -/
theorem edge_mem {start : Nat} {taken left : List SpawnEdge}
    (strand : compiler.Strand start (taken ++ left)) {edge : SpawnEdge}
    (here : compiler.HasEdge edge) (source : edge.source = ending start taken) :
    edge ∈ left ∧ edge.source < edge.target := by
  induction taken generalizing start with
  | nil =>
      cases strand with
      | nil none => exact absurd source (none edge here)
      | cons _ _ only forward _ =>
          cases only edge here source
          exact ⟨List.mem_cons_self, source ▸ forward⟩
  | cons first taken ih =>
      cases strand with
      | cons _ _ _ _ onwards => exact ih onwards source

end Strand
end Compiler
end TriggerGraph
