import TriggerGraph.Proofs.Dictionaries

/-!
# Changing one level of a document

A change at a path touches one element. Where it keeps the name and the own text of a level and
leaves it a level, no dictionary above it looks any different, so the document has the same levels
at the same paths, and no level lies in another, so the other ones stay as they are.
-/

namespace TriggerGraph.Markup

namespace Element

/-! ## Own text -/

theorem textOf_set {nodes : List Node} {index : Nat} {old : Element}
    (here : nodes[index]? = some old.toNode) (new : Element) :
    textOf (nodes.set index new.toNode) = textOf nodes := by
  induction nodes generalizing index with
  | nil => rfl
  | cons node nodes ih =>
      cases index with
      | zero =>
          obtain rfl : node = old.toNode := Option.some.inj here
          rfl
      | succ index =>
          have later := ih here
          cases node <;> simp only [List.set_cons_succ, textOf, later]

theorem textOf_append (nodes : List Node) (first second : Element) :
    textOf (nodes ++ [first.toNode, second.toNode]) = textOf nodes := by
  induction nodes with
  | nil => rfl
  | cons node nodes ih => cases node <;> simp only [List.cons_append, textOf, ih]

theorem text_setString (element : Element) (key text : String) :
    (element.setString key text).text = element.text := by
  cases found : element.valueIndex? key with
  | some index =>
      obtain ⟨child, here, -⟩ := child_of_valueIndex? found
      rw [setString_of_some text found here]
      exact textOf_set here _
  | none =>
      rw [setString_of_none text found]
      exact textOf_append _ _ _

theorem name_setString (element : Element) (key text : String) :
    (element.setString key text).name = element.name := by
  unfold setString
  split <;> rfl

theorem isLevel_eq (element : Element) :
    element.isLevel = (element.name == "d" && (element.valueIndex? levelNameKey).isSome) := by
  cases found : element.valueIndex? levelNameKey with
  | some index =>
      obtain ⟨child, -, held⟩ := child_of_valueIndex? found
      simp [isLevel, held]
  | none => simp [isLevel, value?, found]

end Element

namespace Document

/-! ## Elements at paths -/

/-- The element at a path inside an element. -/
def descend : List Nat → Element → Option Element
  | [], element => some element
  | index :: path, element => elementIn element.children (index :: path)

/-- An element with a change made at a path inside it. -/
def changeAt (f : Element → Element) : List Nat → Element → Element
  | [], element => f element
  | index :: path, element =>
      { element with children := updateIn f (index :: path) element.children }

theorem elementIn_cons {nodes : List Node} {index : Nat} {child : Element}
    (here : nodes[index]? = some child.toNode) (path : List Nat) :
    elementIn nodes (index :: path) = descend path child := by
  cases path <;> simp [elementIn, here, descend]

theorem updateIn_cons (f : Element → Element) {nodes : List Node} {index : Nat} {child : Element}
    (here : nodes[index]? = some child.toNode) (path : List Nat) :
    updateIn f (index :: path) nodes = nodes.set index (changeAt f path child).toNode := by
  rw [updateIn]
  refine List.ext_getElem? fun position => ?_
  rw [List.getElem?_modify, List.getElem?_set']
  by_cases same : index = position
  · subst same
    cases path <;> simp [here, Element.toNode, changeAt]
  · simp [same]

theorem child_updateIn (f : Element → Element) {nodes : List Node} {index : Nat} {child : Element}
    (here : nodes[index]? = some child.toNode) (path : List Nat) :
    (updateIn f (index :: path) nodes)[index]? = some (changeAt f path child).toNode := by
  obtain ⟨inside, -⟩ := List.getElem?_eq_some_iff.1 here
  rw [updateIn_cons f here, List.getElem?_set_self inside]

theorem child_of_elementIn {nodes : List Node} {index : Nat} {path : List Nat} {element : Element}
    (found : elementIn nodes (index :: path) = some element) :
    ∃ child, nodes[index]? = some child.toNode ∧ descend path child = some element := by
  cases here : (nodes[index]?).bind Node.toElement? with
  | none => simp [elementIn, here] at found
  | some child =>
      obtain ⟨node, placed, same⟩ := Option.bind_eq_some_iff.1 here
      rw [Element.eq_toNode_of_toElement? same] at placed
      exact ⟨child, placed, (elementIn_cons placed path).symm.trans found⟩

/-! ## A change at a path -/

theorem elementIn_updateIn (f : Element → Element) (path : List Nat) (nodes : List Node) :
    elementIn (updateIn f path nodes) path = (elementIn nodes path).map f := by
  induction path generalizing nodes with
  | nil => simp [elementIn]
  | cons index path ih =>
      rw [updateIn, elementIn, elementIn, List.getElem?_modify_eq]
      cases nodes[index]? with
      | none => rfl
      | some node =>
          cases node with
          | element tag children =>
              cases path with
              | nil => rfl
              | cons next rest => exact ih children
          | text raw => rfl
          | cdata raw => rfl
          | comment raw => rfl

theorem updateIn_updateIn {f g h : Element → Element} {element : Element} {path : List Nat}
    {nodes : List Node}
    (found : elementIn nodes path = some element) (same : g (f element) = h element) :
    updateIn g path (updateIn f path nodes) = updateIn h path nodes := by
  induction path generalizing nodes with
  | nil => cases found
  | cons index path ih =>
      obtain ⟨child, here, below⟩ := child_of_elementIn found
      have twice : changeAt g path (changeAt f path child) = changeAt h path child := by
        cases path with
        | nil =>
            obtain rfl : child = element := Option.some.inj below
            exact same
        | cons next path => exact congrArg (Element.mk child.tag) (ih below)
      rw [updateIn_cons g (child_updateIn f here path), updateIn_cons f here, updateIn_cons h here,
        List.set_set, twice]

/-! ## Levels -/

theorem levelsFrom_set {nodes : List Node} {index start : Nat} {old new : Node}
    (here : nodes[index]? = some old) (same : levelsIn new = levelsIn old) :
    levelsFrom start (nodes.set index new) = levelsFrom start nodes := by
  induction nodes generalizing index start with
  | nil => rfl
  | cons node nodes ih =>
      cases index with
      | zero =>
          obtain rfl : node = old := Option.some.inj here
          rw [List.set_cons_zero, levelsFrom, levelsFrom, same]
      | succ index => rw [List.set_cons_succ, levelsFrom, levelsFrom, ih here]

theorem levelsIn_toNode (element : Element) :
    levelsIn element.toNode =
      if element.isLevel then [[]] else levelsFrom 0 element.children := by
  rw [Element.toNode, levelsIn]

theorem child_of_mem_levelsFrom {start : Nat} {nodes : List Node} {path : List Nat}
    (member : path ∈ levelsFrom start nodes) :
    ∃ index rest, ∃ child : Element, path = (start + index) :: rest ∧
      nodes[index]? = some child.toNode ∧ rest ∈ levelsIn child.toNode := by
  induction nodes generalizing start with
  | nil => simp [levelsFrom] at member
  | cons node nodes ih =>
      rw [levelsFrom, List.mem_append, List.mem_map] at member
      rcases member with ⟨rest, inside, rfl⟩ | later
      · cases node with
        | element tag children => exact ⟨0, rest, ⟨tag, children⟩, rfl, rfl, inside⟩
        | text _ | cdata _ | comment _ => simp [levelsIn] at inside
      · obtain ⟨index, rest, child, rfl, here, inside⟩ := ih later
        exact ⟨index + 1, rest, child, by rw [Nat.add_right_comm, Nat.add_assoc], here, inside⟩

/-- A level is an element. -/
theorem element_of_mem_levels {nodes : List Node} {path : List Nat}
    (member : path ∈ levelsFrom 0 nodes) :
    ∃ element, elementIn nodes path = some element ∧ element.isLevel = true := by
  induction path generalizing nodes with
  | nil =>
      obtain ⟨index, rest, child, empty, -⟩ := child_of_mem_levelsFrom member
      cases empty
  | cons first path ih =>
      obtain ⟨index, rest, child, same, here, inside⟩ := child_of_mem_levelsFrom member
      obtain ⟨rfl, rfl⟩ : first = index ∧ path = rest := by simpa using same
      rw [elementIn_cons here]
      rw [levelsIn_toNode] at inside
      split at inside
      · rename_i level
        rw [List.mem_singleton.1 inside]
        exact ⟨child, rfl, level⟩
      · obtain ⟨element, found, level⟩ := ih inside
        cases path with
        | nil => cases found
        | cons next path => exact ⟨element, found, level⟩

/-- A level whose change is not seen from above: it stays a level and keeps its name and own text.
-/
structure IsDiscreet (f : Element → Element) (element : Element) : Prop where
  /-- It has the same name. -/
  name : (f element).name = element.name
  /-- It has the same text at its own level. -/
  text : (f element).text = element.text
  /-- It was a level. -/
  level : element.isLevel = true
  /-- It is still a level. -/
  still : (f element).isLevel = true

section Discreet

variable {f : Element → Element} {element : Element} (discreet : IsDiscreet f element)
include discreet

/-- What can be seen of a row of nodes from above does not change. -/
theorem updateIn_of_isDiscreet {path : List Nat} {nodes : List Node}
    (found : elementIn nodes path = some element) :
    (updateIn f path nodes).map Node.face = nodes.map Node.face ∧
      Element.textOf (updateIn f path nodes) = Element.textOf nodes ∧
      ∀ start, levelsFrom start (updateIn f path nodes) = levelsFrom start nodes := by
  induction path generalizing nodes with
  | nil => cases found
  | cons index path ih =>
      obtain ⟨child, here, below⟩ := child_of_elementIn found
      have seen : (changeAt f path child).name = child.name ∧
          (changeAt f path child).text = child.text ∧
          levelsIn (changeAt f path child).toNode = levelsIn child.toNode := by
        cases path with
        | nil =>
            obtain rfl : child = element := Option.some.inj below
            refine ⟨discreet.name, discreet.text, ?_⟩
            rw [levelsIn_toNode, levelsIn_toNode, changeAt, discreet.still, discreet.level]
            rfl
        | cons next path =>
            obtain ⟨faces, text, levels⟩ := ih below
            refine ⟨rfl, text, ?_⟩
            have lookup : (changeAt f (next :: path) child).valueIndex? Element.levelNameKey =
                child.valueIndex? Element.levelNameKey := Element.valueIndex?_congr _ faces
            have level : (changeAt f (next :: path) child).isLevel = child.isLevel := by
              rw [Element.isLevel_eq, Element.isLevel_eq, lookup]
              rfl
            rw [levelsIn_toNode, levelsIn_toNode, level]
            exact congrArg (if child.isLevel then [[]] else ·) (levels 0)
      obtain ⟨name, text, levels⟩ := seen
      have face : (changeAt f path child).toNode.face = child.toNode.face := by
        simp [Node.face, Element.key?, name, text]
      rw [updateIn_cons f here]
      exact ⟨Element.faces_set here face, Element.textOf_set here _, fun _ =>
        levelsFrom_set here levels⟩

/-- The levels stay where they are. -/
theorem levels_update {document : Document} {path : List Nat}
    (found : document.element? path = some element) :
    (document.update path f).levels = document.levels :=
  (updateIn_of_isDiscreet discreet found).2.2 0

end Discreet

/-- No level lies in another, so a change of one leaves the others as they are. -/
theorem elementIn_updateIn_of_ne (f : Element → Element) {path other : List Nat} {nodes : List Node}
    (member : path ∈ levelsFrom 0 nodes) (also : other ∈ levelsFrom 0 nodes) (ne : other ≠ path) :
    elementIn (updateIn f path nodes) other = elementIn nodes other := by
  induction path generalizing nodes other with
  | nil =>
      obtain ⟨index, rest, child, empty, -⟩ := child_of_mem_levelsFrom member
      cases empty
  | cons first path ih =>
      obtain ⟨index, rest, child, same, here, inside⟩ := child_of_mem_levelsFrom member
      obtain ⟨index', rest', child', rfl, here', inside'⟩ := child_of_mem_levelsFrom also
      obtain ⟨rfl, rfl⟩ : first = index ∧ path = rest := by simpa using same
      rw [Nat.zero_add] at ne ⊢
      by_cases apart : first = index'
      · subst apart
        obtain rfl : child = child' :=
          Option.some.inj (congrArg (Option.bind · Node.toElement?) (here.symm.trans here'))
        rw [elementIn_cons (child_updateIn f here path), elementIn_cons here]
        rw [levelsIn_toNode] at inside inside'
        split at inside
        · rename_i level
          rw [if_pos level] at inside'
          rw [List.mem_singleton.1 inside, List.mem_singleton.1 inside'] at ne
          exact absurd rfl ne
        · rename_i outside
          rw [if_neg outside] at inside'
          obtain ⟨next, beyond, -, rfl, -⟩ := child_of_mem_levelsFrom inside
          obtain ⟨next', beyond', -, rfl, -⟩ := child_of_mem_levelsFrom inside'
          exact ih inside inside' fun same => ne (congrArg (first :: ·) same)
      · rw [updateIn_cons f here, elementIn_cons here', elementIn_cons]
        rw [List.getElem?_set_ne apart, here']

end Document
end TriggerGraph.Markup
