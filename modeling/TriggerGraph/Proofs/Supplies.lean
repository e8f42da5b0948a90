import TriggerGraph.Proofs.Lockstep

/-!
# Anonymous names do not reach the output

A script is run twice, with two supplies of anonymous names that mention none of its own names.  The
runs succeed and fail alike, and nothing they make differs but the anonymous names themselves.
-/

namespace TriggerGraph

/-- The names of contexts that a statement mentions. -/
def Statement.labels : Statement → List String
  | .createContext label _ _ | .switchTo label | .context label => [label]
  | _ => []

theorem Statement.Everywhere.and {one two : Statement → Prop} {statement : Statement}
    (first : statement.Everywhere one) (second : statement.Everywhere two) :
    statement.Everywhere fun inner => one inner ∧ two inner := by
  induction first with
  | intro here _ ih =>
      obtain ⟨there, inside⟩ := second
      exact .intro ⟨here, there⟩ fun inner member => ih inner member (inside inner member)

/-- A supply of anonymous names for a script: it gives no name twice, and neither the global name
nor one that the script mentions. -/
structure Compiler.SuppliesScript (script : List Statement) (names : Nat → String) : Prop where
  /-- Names of its own. -/
  supply : Supply names
  /-- The script mentions none of them. -/
  unused : ∀ statement ∈ script, statement.Everywhere fun inner =>
    ∀ label ∈ inner.labels, ∀ number, names number ≠ label

/-- Contexts that agree in everything but an anonymous name. -/
structure Context.SameButName (names other : Nat → String) (id : Nat) (one two : Context) :
    Prop where
  name : two.name = one.name ∨ one.name = names id ∧ two.name = other id
  group : two.group = one.group
  parent : two.parent = one.parent
  objects : two.objects = one.objects

namespace Twin

/-- Two runs that differ in their supplies alone. -/
def ofSupplies (names other : Nat → String) (first : Function.Injective names)
    (second : Function.Injective other) : Twin where
  slot := id
  kept _ := True
  fixed _ _ := rfl
  names
  other
  opened := 0
  before _ := []
  empty _ _ := rfl
  plain label := ∀ number, names number ≠ label ∧ other number ≠ label
  supplies := by
    refine .inr fun supply member => ?_
    simp only [List.mem_cons, List.not_mem_nil, or_false] at member
    rcases member with rfl | rfl
    · exact ⟨first, fun number _ plain => (plain number).1 rfl⟩
    · exact ⟨second, fun number _ plain => (plain number).2 rfl⟩
  clear _ := True

section Supplies

variable {names other : Nat → String} {first : Function.Injective names}
  {second : Function.Injective other}

theorem namesOnly_ofSupplies (object : Object) :
    object.NamesOnly (ofSupplies names other first second).kept :=
  ⟨fun _ _ _ _ => trivial, fun _ _ _ _ => trivial⟩

theorem allowsCounter_ofSupplies (operand : Operand Counter) :
    (ofSupplies names other first second).AllowsCounter operand := by
  cases operand with
  | literal counter => trivial
  | named name => trivial

theorem allowsAmount_ofSupplies (operand : Operand Amount) :
    (ofSupplies names other first second).AllowsAmount operand := by
  cases operand with
  | literal amount => cases amount <;> trivial
  | named name => trivial

/-- Only the names of contexts matter. -/
theorem allows_ofSupplies {statement : Statement}
    (unused : ∀ label ∈ statement.labels, ∀ number,
      names number ≠ label ∧ other number ≠ label) :
    (ofSupplies names other first second).Allows statement := by
  cases statement with
  | createContext label | switchTo label | context label => exact unused label List.mem_cons_self
  | add object => exact namesOnly_ofSupplies object
  | addChecked fields => exact fun object _ => namesOnly_ofSupplies object
  | repeatWhile operand => exact allowsCounter_ofSupplies _
  | callRemapped name arguments => exact fun operand _ => allowsCounter_ofSupplies operand
  | counter options => exact fun _ _ => trivial
  | change left op right => exact ⟨allowsCounter_ofSupplies left, allowsAmount_ofSupplies right⟩
  | reset left => exact allowsCounter_ofSupplies left
  | transfer way left right =>
      exact ⟨allowsCounter_ofSupplies left, allowsCounter_ofSupplies right⟩
  | ifIs left => exact allowsCounter_ofSupplies left
  | condition operand => exact allowsCounter_ofSupplies _
  | dispatch left => exact allowsCounter_ofSupplies left
  | _ => trivial

theorem sameRun_start (options : CompilerOptions)
    (apart : ∀ number, names number ≠ Compiler.globalName ∧ other number ≠ Compiler.globalName)
    (budget : Nat) :
    (ofSupplies names other first second).SameRun budget (.start (.start options names))
      (.start (.start options other)) where
  compiler :=
    { ids := rfl
      contexts := by
        intro id
        cases id with
        | zero => exact .some ⟨.inl ⟨rfl, apart⟩, rfl, rfl, [], rfl, rfl⟩
        | succ id => exact .none
      stack := rfl
      chain := rfl
      options := rfl
      names := rfl
      other := rfl
      opened := Nat.zero_le _
      room := .inl fun _ => rfl }
  bindings _ := .inl rfl
  finished := .nil

theorem SameContext.sameButName {number : Nat} {one two : Context}
    (same : (ofSupplies names other first second).SameContext number one two) :
    one.SameButName names other number two where
  name := same.name.imp (·.1) (·.2)
  group := same.group
  parent := same.parent
  objects := by
    obtain ⟨more, left, right⟩ := same.objects
    have unmoved : more.map (·.rename (ofSupplies names other first second).slot) = more := by
      refine (List.map_congr_left fun object _ => ?_).trans (List.map_id _)
      exact Object.rename_of_namesOnly (ofSupplies names other first second).fixed
        (namesOnly_ofSupplies object)
    rw [left, right, unmoved]

end Supplies
end Twin

/-- The output is made of the groups and the objects of the contexts. -/
theorem Compiler.flush_of_same {one two : Compiler}
    (same : two.contexts.map (fun context => (context.group, context.objects)) =
      one.contexts.map fun context => (context.group, context.objects)) :
    two.flush = one.flush := by
  rw [flush, flush]
  generalize one.contexts = left at same ⊢
  generalize two.contexts = right at same ⊢
  cases left with
  | nil =>
      rw [List.map_nil, List.map_eq_nil_iff] at same
      rw [same]
  | cons context others =>
      cases right with
      | nil => cases same
      | cons context' others' =>
          rw [List.map_cons, List.map_cons, List.cons.injEq, Prod.mk.injEq] at same
          obtain ⟨⟨-, objects⟩, rest⟩ := same
          have later := congrArg (List.flatMap fun pair : Reference × List Object =>
            pair.2.map (triggered pair.1)) rest
          rw [List.flatMap_map, List.flatMap_map] at later
          exact congrArg₂ (· ++ ·) objects later

/-- Two supplies that a script does not mention lead to the same results and failures, to contexts
that differ in anonymous names alone, and to the same output. -/
theorem anonymous_names_never_reach_output (options : CompilerOptions) (script : List Statement)
    (names other : Nat → String) (first : Compiler.SuppliesScript script names)
    (second : Compiler.SuppliesScript script other) :
    let one := (Run.start (.start options names)).steps script
    let two := (Run.start (.start options other)).steps script
    List.Forall₂ (Entry.Same names other) one.log two.log ∧
      (∀ id, Option.Rel (Context.SameButName names other id) (one.compiler.context? id)
        (two.compiler.context? id)) ∧
      two.compiler.flush = one.compiler.flush ∧
      ∀ table, two.compiler.exportLevel table = one.compiler.exportLevel table := by
  intro one two
  let twin := Twin.ofSupplies names other first.supply.injective second.supply.injective
  have start : twin.SameRun (Statement.demandAll script + 0) (.start (.start options names))
      (.start (.start options other)) :=
    Twin.sameRun_start options
      (fun number => ⟨first.supply.apart number, second.supply.apart number⟩) _
  have allowed : ∀ statement ∈ script, statement.Everywhere twin.Allows := by
    intro statement member
    have unused := (first.unused statement member).and (second.unused statement member)
    refine unused.mono fun inner both => Twin.allows_ofSupplies fun label mentioned number => ?_
    exact ⟨both.1 label mentioned number, both.2 label mentioned number⟩
  have same : twin.SameRun 0 one two := start.steps allowed
  have output : two.compiler.flush = one.compiler.flush := by
    refine Compiler.flush_of_same (same.compiler.map_contexts fun id left right here => ?_)
    rw [here.group, here.sameButName.objects]
  refine ⟨?_, fun id => ?_, output, fun table => ?_⟩
  · exact List.rel_reverse same.finished
  · exact Twin.rel_mono (same.compiler.contexts id) fun _ _ here => here.sameButName
  · rw [Compiler.exportLevel, output, Compiler.exportLevel]

/-- A script that names a context, waits in a function, looks where it is and fails. -/
def Statement.lookingAround : List Statement :=
  [.createContext "side" true none,
    .function none (some "f") [.wait .zero, .current, .context "side"],
    .call (.named "f") .zero,
    .createContext "side" false none]

/-- Anonymous names made of one letter. -/
def Compiler.lettered (letter : Char) (number : Nat) : String :=
  String.ofList (.replicate (number + 1) letter)

theorem Compiler.head?_of_lettered {letter : Char} {number : Nat} {label : String}
    (same : lettered letter number = label) : label.toList.head? = some letter := by
  rw [← same, lettered, String.toList_ofList, List.replicate_succ, List.head?_cons]

theorem Compiler.supply_lettered {letter : Char} (apart : letter ≠ 'g') :
    Supply (lettered letter) where
  injective one two same := by
    have lengths := congrArg (fun text : String => text.toList.length) same
    simpa [lettered] using lengths
  apart number same := apart (Option.some.inj (head?_of_lettered same)).symm

theorem Compiler.suppliesScript_lettered {letter : Char} (apart : letter ≠ 'g' ∧ letter ≠ 's') :
    SuppliesScript Statement.lookingAround (lettered letter) := by
  have unmentioned (inner : Statement) (only : inner.labels ⊆ ["side"]) :
      ∀ label ∈ inner.labels, ∀ number, lettered letter number ≠ label := by
    intro label member number same
    rw [List.mem_singleton.1 (only member)] at same
    exact apart.2 (Option.some.inj (head?_of_lettered same)).symm
  refine ⟨supply_lettered apart.1, fun statement member => ?_⟩
  simp only [Statement.lookingAround, List.mem_cons, List.not_mem_nil, or_false] at member
  rcases member with rfl | rfl | rfl | rfl
  · exact Statement.everywhere_of_bodiless rfl (unmentioned _ (List.Subset.refl _))
  · refine .intro (unmentioned _ (List.nil_subset _)) fun inner inside => ?_
    simp only [Statement.body, List.mem_cons, List.not_mem_nil, or_false] at inside
    rcases inside with rfl | rfl | rfl
    · exact Statement.everywhere_of_bodiless rfl (unmentioned _ (List.nil_subset _))
    · exact Statement.everywhere_of_bodiless rfl (unmentioned _ (List.nil_subset _))
    · exact Statement.everywhere_of_bodiless rfl (unmentioned _ (List.Subset.refl _))
  · exact Statement.everywhere_of_bodiless rfl (unmentioned _ (List.nil_subset _))
  · exact Statement.everywhere_of_bodiless rfl (unmentioned _ (List.Subset.refl _))

/-- The runs look at contexts of different names and end in the same level. -/
theorem looking_around_ends_alike :
    let one := (Run.start (.start .standard (Compiler.lettered 'a'))).steps Statement.lookingAround
    let two := (Run.start (.start .standard (Compiler.lettered 'b'))).steps Statement.lookingAround
    two.compiler.flush = one.compiler.flush ∧ one.compiler.flush.length = 2 ∧
      (one.compiler.context? 3).map (·.name) = some "aaaa" ∧
      (two.compiler.context? 3).map (·.name) = some "bbbb" := by
  intro one two
  obtain ⟨-, -, output, -⟩ := anonymous_names_never_reach_output .standard Statement.lookingAround
    (Compiler.lettered 'a') (Compiler.lettered 'b') (Compiler.suppliesScript_lettered (by decide))
    (Compiler.suppliesScript_lettered (by decide))
  refine ⟨output, ?_, ?_, ?_⟩
  · decide +kernel
  · decide +kernel
  · decide +kernel

end TriggerGraph
