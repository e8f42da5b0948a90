import TriggerGraph.Proofs.SaveRoundTrip

/-!
# Levels are found where they are

The search for levels goes down into every element that is not a level itself.  It finds the
outermost ones, each once and in the order of the document, and the path that it gives leads to the
level.  Since a change of an element leaves an element in its place, this path leads somewhere after
every edit, and so no edit of an opened save file fails.
-/

namespace TriggerGraph

namespace Markup

/-- A level as it is told from other elements: a dictionary with a value for its name. -/
structure Element.IsEntry (element : Element) : Prop where
  /-- It is a dictionary. -/
  name : element.name = "d"
  /-- Its name has a value. -/
  named : ∃ value, element.value? "k2" = some value

theorem Element.isLevel_iff {element : Element} : element.isLevel = true ↔ element.IsEntry := by
  rw [isLevel, Bool.and_eq_true_iff, beq_iff_eq, Option.isSome_iff_exists]
  constructor
  · rintro ⟨name, named⟩
    exact ⟨name, named⟩
  · intro entry
    exact ⟨entry.name, entry.named⟩

namespace Document

/-! ## The outermost levels -/

/-- A path leads to a level that lies in no other one. -/
structure IsOutermost (nodes : List Node) (path : List Nat) (element : Element) : Prop where
  /-- The path leads to the element. -/
  found : elementIn nodes path = some element
  /-- The element is a level. -/
  entry : element.IsEntry
  /-- No element on the way is a level. -/
  outside : ∀ above ancestor, above <+: path → above ≠ path →
    elementIn nodes above = some ancestor → ¬ancestor.IsEntry

theorem mem_levelsFrom_of_child {nodes : List Node} {index start : Nat} {rest : List Nat}
    {child : Element} (here : nodes[index]? = some child.toNode)
    (inside : rest ∈ levelsIn child.toNode) : (start + index) :: rest ∈ levelsFrom start nodes := by
  induction nodes generalizing index start with
  | nil => simp at here
  | cons node nodes ih =>
      rw [levelsFrom, List.mem_append]
      cases index with
      | zero =>
          obtain rfl : node = child.toNode := Option.some.inj here
          exact .inl (List.mem_map_of_mem inside)
      | succ index =>
          rw [Nat.add_comm index, ← Nat.add_assoc]
          exact .inr (ih here)

/-- A level is outermost in a row of nodes if it is a node of the row, or if its node is no level
and it is outermost among the children of that. -/
theorem isOutermost_cons_iff {nodes : List Node} {index : Nat} {path : List Nat}
    {child element : Element} (here : nodes[index]? = some child.toNode) :
    IsOutermost nodes (index :: path) element ↔
      path = [] ∧ child = element ∧ element.IsEntry ∨
        ¬child.IsEntry ∧ IsOutermost child.children path element := by
  constructor
  · rintro ⟨found, entry, outside⟩
    rw [elementIn_cons here] at found
    cases path with
    | nil => exact .inl ⟨rfl, Option.some.inj found, entry⟩
    | cons next path =>
        refine .inr ⟨?_, found, entry, ?_⟩
        · exact outside [index] child (by simp) (by simp) (elementIn_cons here [])
        · intro above ancestor shorter apart reached
          cases above with
          | nil => cases reached
          | cons first above =>
              refine outside (index :: first :: above) ancestor ?_ ?_ ?_
              · exact List.cons_prefix_cons.2 ⟨rfl, shorter⟩
              · exact fun same => apart (List.cons.inj same).2
              · rw [elementIn_cons here]
                exact reached
  · rintro (⟨rfl, rfl, entry⟩ | ⟨outer, found, entry, outside⟩)
    · refine ⟨elementIn_cons here [], entry, ?_⟩
      intro above ancestor shorter apart reached
      cases above with
      | nil => cases reached
      | cons first above =>
          obtain ⟨rfl, rest⟩ := List.cons_prefix_cons.1 shorter
          rw [List.prefix_nil.1 rest] at apart
          exact absurd rfl apart
    · have inner {below : List Nat} {other : Element}
          (reached : elementIn child.children below = some other) :
          elementIn nodes (index :: below) = some other := by
        cases below with
        | nil => cases reached
        | cons next below => exact (elementIn_cons here _).trans reached
      refine ⟨inner found, entry, ?_⟩
      intro above ancestor shorter apart reached
      cases above with
      | nil => cases reached
      | cons first above =>
          obtain ⟨rfl, rest⟩ := List.cons_prefix_cons.1 shorter
          rw [elementIn_cons here] at reached
          cases above with
          | nil =>
              obtain rfl : child = ancestor := Option.some.inj reached
              exact outer
          | cons next above =>
              exact outside _ ancestor rest (fun same => apart (congrArg _ same)) reached

theorem mem_levelsFrom_iff {nodes : List Node} {path : List Nat} :
    path ∈ levelsFrom 0 nodes ↔ ∃ element, IsOutermost nodes path element := by
  induction path generalizing nodes with
  | nil =>
      constructor
      · intro member
        obtain ⟨index, rest, child, empty, -⟩ := child_of_mem_levelsFrom member
        cases empty
      · rintro ⟨element, outermost⟩
        cases outermost.found
  | cons first path ih =>
      constructor
      · intro member
        obtain ⟨index, rest, child, same, here, inside⟩ := child_of_mem_levelsFrom member
        obtain ⟨rfl, rfl⟩ : first = index ∧ path = rest := by simpa using same
        rw [levelsIn_toNode] at inside
        split at inside
        · rename_i level
          refine ⟨child, (isOutermost_cons_iff here).2 (.inl ⟨?_, rfl, ?_⟩)⟩
          · exact List.mem_singleton.1 inside
          · exact Element.isLevel_iff.1 level
        · rename_i outer
          obtain ⟨element, outermost⟩ := ih.1 inside
          refine ⟨element, (isOutermost_cons_iff here).2 (.inr ⟨?_, outermost⟩)⟩
          exact mt Element.isLevel_iff.2 outer
      · rintro ⟨element, outermost⟩
        obtain ⟨child, here, -⟩ := child_of_elementIn outermost.found
        have inside : path ∈ levelsIn child.toNode := by
          rw [levelsIn_toNode]
          rcases (isOutermost_cons_iff here).1 outermost with ⟨rfl, rfl, entry⟩ | ⟨outer, below⟩
          · rw [if_pos (Element.isLevel_iff.2 entry)]
            exact List.mem_singleton_self []
          · rw [if_neg (mt Element.isLevel_iff.1 outer)]
            exact ih.2 ⟨element, below⟩
        rw [← Nat.zero_add first]
        exact mem_levelsFrom_of_child here inside

/-! ## The order of a document -/

/-- The order of a document on paths: an element comes before what lies in it, and of two nodes in a
row everything in the first comes before everything in the second. -/
def Precedes (first second : List Nat) : Prop := List.Lex (· < ·) first second

theorem Precedes.ne {first second : List Nat} (precedes : Precedes first second) :
    first ≠ second := by
  rintro rfl
  exact List.lex_irrefl Nat.lt_irrefl first precedes

mutual

theorem pairwise_levelsIn : ∀ node : Node, (levelsIn node).Pairwise Precedes
  | .element tag children => by
      rw [levelsIn]
      split
      · exact List.pairwise_singleton _ _
      · exact pairwise_levelsFrom 0 children
  | .text _ => List.Pairwise.nil
  | .cdata _ => List.Pairwise.nil
  | .comment _ => List.Pairwise.nil

theorem pairwise_levelsFrom (start : Nat) :
    ∀ nodes : List Node, (levelsFrom start nodes).Pairwise Precedes
  | [] => List.Pairwise.nil
  | node :: rest => by
      rw [levelsFrom, List.pairwise_append, List.pairwise_map]
      refine ⟨?_, pairwise_levelsFrom (start + 1) rest, ?_⟩
      · exact (pairwise_levelsIn node).imp fun precedes => List.Lex.cons precedes
      · intro first earlier second later
        obtain ⟨path, -, rfl⟩ := List.mem_map.1 earlier
        obtain ⟨index, path', -, rfl, -⟩ := child_of_mem_levelsFrom later
        exact List.Lex.rel (by omega)

end

end Document
end Markup

namespace SaveFile

open Markup

/-! ## Edits of an opened file -/

/-- An edit of a level that is there succeeds, and leaves it there. -/
theorem set_of_found {file : SaveFile} {element : Element}
    (found : file.document.element? file.entry = some element) (level : String) :
    ∃ next after, file.set level = .ok next ∧
      next.document.element? next.entry = some after := by
  refine ⟨_, element.setString Element.levelPayloadKey (Level.toPayload level),
    set_eq found level, ?_⟩
  change Document.elementIn (Document.updateIn _ file.entry file.document.nodes) file.entry = _
  rw [Document.elementIn_updateIn]
  exact congrArg (Option.map _) found

theorem edit_of_found {file : SaveFile} {element : Element}
    (found : file.document.element? file.entry = some element) (edits : List Edit) :
    ∃ edited, file.edit edits = .ok edited := by
  induction edits generalizing file element with
  | nil => exact ⟨file, rfl⟩
  | cons first edits ih =>
      obtain ⟨next, after, applied, there⟩ := set_of_found found (first.result file.data.level)
      obtain ⟨edited, run⟩ := ih there
      refine ⟨edited, ?_⟩
      rw [edit, List.foldlM_cons, Edit.apply_eq_set, applied]
      exact run

/-- The levels of a document are its outermost entries in the order of the document, and a save file
that was opened at one of them can be edited without end. -/
theorem levels_are_outermost_entries :
    (∀ document : Document,
      document.levels.Pairwise Document.Precedes ∧ document.levels.Nodup ∧
      ∀ path, path ∈ document.levels ↔
        ∃ element, document.element? path = some element ∧ element.IsEntry ∧
          ∀ above ancestor, above <+: path → above ≠ path →
            document.element? above = some ancestor → ¬ancestor.IsEntry) ∧
    ∀ (directory : SaveDirectory) (text : String) (wanted : Option String) (file : SaveFile),
      ofText directory text wanted = .ok file →
      ∀ edits : List Edit, ∃ edited, file.edit edits = .ok edited := by
  constructor
  · intro document
    have ordered := Document.pairwise_levelsFrom 0 document.nodes
    refine ⟨ordered, ordered.imp Document.Precedes.ne, fun path => ?_⟩
    rw [Document.levels, Document.mem_levelsFrom_iff]
    constructor
    · rintro ⟨element, found, entry, outside⟩
      exact ⟨element, found, entry, outside⟩
    · rintro ⟨element, found, entry, outside⟩
      exact ⟨element, found, entry, outside⟩
  · intro directory text wanted file opened edits
    obtain ⟨-, -, -, element, found, -⟩ := ofText_eq_ok.1 opened
    exact edit_of_found found edits

/-- A level in a level, and one whose name is the key of its payload. -/
def nestedLevels : Document :=
  ⟨none, [
    plain "d" [plain "k" [.text "k2"], plain "s" [.text "A"],
      plain "d" [plain "k" [.text "k2"], plain "s" [.text "B"]]],
    plain "p" [plain "d" [plain "k" [.text "k2"], plain "k" [.text "k4"]]]]⟩

/-- Every edit takes the key for the value that it is to set, and still none fails. -/
theorem nested_level_is_edited :
    nestedLevels.levels = [[0], [1, 0]] ∧
      ∃ file edited, ofText ⟨"/saves"⟩ nestedLevels.write (some "k4") = .ok file ∧
        file.edit [.set "a;", .add "b;", .set ""] = .ok edited := by
  have opened : ofText ⟨"/saves"⟩ nestedLevels.write (some "k4") =
      .ok ⟨⟨"/saves"⟩, nestedLevels, [1, 0], ⟨"k4", "", ""⟩⟩ := by decide +kernel
  obtain ⟨edited, run⟩ :=
    levels_are_outermost_entries.2 _ _ _ _ opened [.set "a;", .add "b;", .set ""]
  exact ⟨by decide +kernel, _, edited, opened, run⟩

end SaveFile
end TriggerGraph
